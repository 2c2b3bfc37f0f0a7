import Pictogram.Command.Batch
import Pictogram.Proofs.Files.Making

/-!
Commands run in memory. A batch converts its drawings one by one without a change to the files, and
then makes its directory and writes what came of them: what it reports and what it leaves behind is
told here by the file operations alone.
-/

namespace Pictogram

open FileTree

/-- What comes of the drawing of a job, where `accepts` says which components are taken. -/
def Job.outcome (accepts : Dialect → String → Bool) (config : Config) (t : FileTree) (job : Job) :
    Except JobError Conversion :=
  ((Command.runJob accepts config job : StateM Memory _) { tree := t }).1

/-- The file that a component is written to, with its text. -/
def Conversion.file (c : Conversion) : String × String :=
  (c.dialect.componentFile c.name, c.source)

/-- The jobs of a batch. -/
def BatchRequest.jobs (request : BatchRequest) (t : FileTree) : List Job :=
  Job.plan (Path.drawings (t.filesBelow request.directory))

/-- What comes of the jobs of a batch, each by itself. -/
def BatchRequest.results (accepts : Dialect → String → Bool) (config : Config)
    (request : BatchRequest) (t : FileTree) : List (Job × Except JobError Conversion) :=
  (request.jobs t).map fun job => (job, job.outcome accepts config t)

namespace Command

/-- The components among what came of some jobs. -/
def conversions (results : List (Job × Except JobError Conversion)) : List Conversion :=
  results.filterMap (·.2.toOption)

theorem conversions_cons_error (job : Job) (e : JobError)
    (results : List (Job × Except JobError Conversion)) :
    conversions ((job, .error e) :: results) = conversions results :=
  rfl

theorem conversions_cons_ok (job : Job) (c : Conversion)
    (results : List (Job × Except JobError Conversion)) :
    conversions ((job, .ok c) :: results) = c :: conversions results :=
  rfl

/-- The files that a batch writes for what came of its jobs, with their texts. -/
def files (config : Config) (request : BatchRequest)
    (results : List (Job × Except JobError Conversion)) : List (String × String) :=
  (conversions results).map (·.file) ++
    if request.indexes config then
      [(config.dialect.indexFile, indexModule ((conversions results).map (·.name)))]
    else []

/-- Runs a command in a workspace in memory. -/
def runIn {α : Type} (command : Command (StateM Memory) α) (w : Memory) :
    Except CommandError α × Memory :=
  command.run w

variable {α β : Type} {x : Command (StateM Memory) α} {f : α → Command (StateM Memory) β}
  {w w' : Memory} {a a' : α} {b : β} {config : Config}

theorem runIn_bind_eq_ok_iff :
    runIn (x >>= f) w = (.ok b, w') ↔
      ∃ a between, runIn x w = (.ok a, between) ∧ runIn (f a) between = (.ok b, w') := by
  change ExceptT.bindCont f (runIn x w).1 (runIn x w).2 = _ ↔ _
  rcases runIn x w with ⟨e | a, between⟩
  · constructor
    · intro h
      cases h
    · rintro ⟨a, between', h, -⟩
      cases h
  · constructor
    · intro h
      exact ⟨a, between, rfl, h⟩
    · rintro ⟨a', between', h, hf⟩
      cases h
      exact hf

theorem runIn_pure_eq_ok_iff :
    runIn (pure a : Command (StateM Memory) α) w = (.ok a', w') ↔ a = a' ∧ w = w' := by
  change ((.ok a, w) : Except CommandError α × Memory) = _ ↔ _
  simp

theorem runIn_throw_ne_ok {e : CommandError} :
    runIn (throw e : Command (StateM Memory) α) w ≠ (.ok a, w') := by
  change ((.error e, w) : Except CommandError α × Memory) ≠ _
  simp

/-- An operation of the workspace does in a command what it does by itself. -/
theorem runIn_lift_eq_ok_iff {y : StateM Memory α} :
    runIn (ExceptT.lift y) w = (.ok a, w') ↔ y w = (a, w') := by
  change ((.ok (y w).1, (y w).2) : Except CommandError α × Memory) = _ ↔ _
  rw [Prod.mk.injEq, Except.ok.injEq]
  exact ⟨fun ⟨ha, hw⟩ => Prod.ext ha hw, fun h => ⟨congrArg Prod.fst h, congrArg Prod.snd h⟩⟩

theorem settle_eq_ok_iff {result : Except FileError FileTree} :
    Memory.settle result w = (.ok (), w') ↔ ∃ t, result = .ok t ∧ { w with tree := t } = w' := by
  cases result with
  | error e =>
    constructor
    · intro h
      cases h
    · rintro ⟨t, h, -⟩
      cases h
  | ok t =>
    change ((.ok (), _) : Except FileError Unit × Memory) = _ ↔ _
    simp

theorem runIn_notify_eq_ok (n : Notice) (h : runIn (Workspace.notify n) w = (.ok (), w')) :
    w'.tree = w.tree := by
  obtain ⟨-, rfl⟩ := Prod.mk.inj (runIn_lift_eq_ok_iff.1 h)
  rfl

theorem bind_apply (y : StateM Memory α) (g : α → StateM Memory β) (w : Memory) :
    (y >>= g) w = g (y w).1 (y w).2 :=
  rfl

/-- Whether an action reads files and leaves them as they are, with an answer that depends on
nothing else in the workspace. -/
def Reads (y : StateM Memory α) : Prop :=
  ∀ w, (y w).1 = (y { tree := w.tree }).1 ∧ (y w).2.tree = w.tree

section Reading

theorem reads_pure (a : α) : Reads (pure a) :=
  fun _ => ⟨rfl, rfl⟩

theorem Reads.bind {y : StateM Memory α} {g : α → StateM Memory β} (hy : Reads y)
    (hg : ∀ a, Reads (g a)) : Reads (y >>= g) := by
  intro w
  obtain ⟨hanswer, htree⟩ := hy w
  obtain ⟨hanswer', htree'⟩ := hg (y w).1 (y w).2
  obtain ⟨hanswer'', -⟩ := hg (y { tree := w.tree }).1 (y { tree := w.tree }).2
  constructor
  · change (g (y w).1 (y w).2).1 = (g (y { tree := w.tree }).1 (y { tree := w.tree }).2).1
    rw [hanswer', hanswer'', htree, (hy { tree := w.tree }).2, hanswer]
  · exact htree'.trans htree

theorem reads_notify (n : Notice) : Reads (Workspace.notify n) :=
  fun _ => ⟨rfl, rfl⟩

theorem reads_markup (source : MarkupSource) : Reads (markup source) := by
  cases source with
  | inline text => exact reads_pure _
  | external uri =>
    rw [markup]
    cases MarkupSource.localPath? uri with
    | none => exact reads_pure _
    | some path => exact .bind (fun _ => ⟨rfl, rfl⟩) fun _ => reads_pure _

theorem reads_tryConvert (optimizer : Optimizer) (options : Options) (source : MarkupSource) :
    Reads (tryConvert optimizer options source) := by
  refine (reads_markup source).bind fun text => ?_
  cases options.validate with
  | error e => exact reads_pure _
  | ok =>
    cases text with
    | error e => exact reads_pure _
    | ok text =>
      dsimp only
      cases (optimizer.apply text).2 with
      | none => exact reads_pure _
      | some e => exact (reads_notify _).bind fun _ => reads_pure _

theorem reads_runJob (accepts : Dialect → String → Bool) (config : Config) (job : Job) :
    Reads (runJob accepts config job) := by
  refine (reads_tryConvert _ _ _).bind fun result => ?_
  cases result with
  | error e => exact reads_pure _
  | ok conversion =>
    dsimp only
    split <;> exact reads_pure _

end Reading

section Lifting

/-- What reads the workspace alone does the same in a command. -/
theorem lift_bind (y : StateM Memory α) (g : α → StateM Memory β) :
    (ExceptT.lift (y >>= g) : Command (StateM Memory) β) =
      ExceptT.lift y >>= fun a => ExceptT.lift (g a) :=
  rfl

theorem lift_markup (source : MarkupSource) :
    (markup source : Command (StateM Memory) _) = ExceptT.lift (markup source) := by
  cases source with
  | inline text => rfl
  | external uri =>
    rw [markup, markup]
    cases MarkupSource.localPath? uri <;> rfl

theorem lift_tryConvert (optimizer : Optimizer) (options : Options) (source : MarkupSource) :
    (tryConvert optimizer options source : Command (StateM Memory) _) =
      ExceptT.lift (tryConvert optimizer options source) := by
  rw [tryConvert, tryConvert, lift_bind, lift_markup]
  congr 1
  funext text
  cases options.validate with
  | error e => rfl
  | ok =>
    cases text with
    | error e => rfl
    | ok text =>
      dsimp only
      cases (optimizer.apply text).2 <;> rfl

theorem lift_runJob (accepts : Dialect → String → Bool) (config : Config) (job : Job) :
    (runJob accepts config job : Command (StateM Memory) _) =
      ExceptT.lift (runJob accepts config job) := by
  rw [runJob, runJob, lift_bind, lift_tryConvert]
  congr 1
  funext result
  cases result with
  | error e => rfl
  | ok conversion =>
    dsimp only
    split <;> rfl

theorem lift_runJobs (accepts : Dialect → String → Bool) (config : Config) (jobs : List Job) :
    (runJobs accepts config jobs : Command (StateM Memory) _) =
      ExceptT.lift (runJobs accepts config jobs) := by
  induction jobs with
  | nil => rfl
  | cons job jobs ih =>
    rw [runJobs, runJobs, lift_bind, lift_runJob]
    congr 1
    funext result
    rw [lift_bind, ih]
    rfl

end Lifting

/-- What comes of some jobs, each by itself, with the files as they were. -/
theorem runJobs_eq (accepts : Dialect → String → Bool) (config : Config) (jobs : List Job)
    (w : Memory) :
    ((runJobs accepts config jobs : StateM Memory _) w).1 =
        jobs.map (fun job => (job, job.outcome accepts config w.tree)) ∧
      ((runJobs accepts config jobs : StateM Memory _) w).2.tree = w.tree := by
  induction jobs generalizing w with
  | nil => exact ⟨rfl, rfl⟩
  | cons job jobs ih =>
    obtain ⟨hanswer, htree⟩ := reads_runJob accepts config job w
    obtain ⟨hmore, hleft⟩ := ih ((runJob accepts config job : StateM Memory _) w).2
    rw [htree] at hmore hleft
    constructor
    · change (job, ((runJob accepts config job : StateM Memory _) w).1) ::
        ((runJobs accepts config jobs : StateM Memory _)
          ((runJob accepts config job : StateM Memory _) w).2).1 = _
      rw [hmore, hanswer]
      rfl
    · exact hleft

/-- What a batch writes of its results, and what it adds to its report. -/
theorem runIn_writeResults {output : String} {report report' : BatchReport}
    {results : List (Job × Except JobError Conversion)}
    (h : runIn (writeResults output report results) w = (.ok report', w')) :
    w.tree.writeAll output ((conversions results).map (·.file)) = .ok w'.tree ∧
      report'.converted = report.converted ++ (conversions results).map (·.name) ∧
      report'.converted.length + report'.failed =
        report.converted.length + report.failed + results.length := by
  induction results generalizing report w with
  | nil =>
    obtain ⟨rfl, rfl⟩ := runIn_pure_eq_ok_iff.1 h
    exact ⟨rfl, by simp [conversions], rfl⟩
  | cons result results ih =>
    obtain ⟨job, e | conversion⟩ := result
    · obtain ⟨_, between, hnotice, h⟩ := runIn_bind_eq_ok_iff.1 h
      obtain ⟨hwritten, hconverted, hcount⟩ := ih h
      rw [runIn_notify_eq_ok _ hnotice] at hwritten
      refine ⟨hwritten, hconverted, hcount.trans ?_⟩
      simp only [List.length_cons]
      omega
    · obtain ⟨written, between, hwrite, h⟩ := runIn_bind_eq_ok_iff.1 h
      cases written with
      | error e => exact absurd h runIn_throw_ne_ok
      | ok =>
        obtain ⟨hwritten, hconverted, hcount⟩ := ih h
        obtain ⟨t, hfirst, rfl⟩ := settle_eq_ok_iff.1 (runIn_lift_eq_ok_iff.1 hwrite)
        refine ⟨bind_eq_ok_iff.2 ⟨t, hfirst, hwritten⟩, ?_, hcount.trans ?_⟩
        · rw [hconverted, List.append_assoc]
          rfl
        · simp only [List.length_cons, List.length_append, List.length_nil]
          omega

/-- The file of an index is the last that a batch writes. -/
theorem runIn_writeIndex {output : String} {names : List String} (hsome : names ≠ [])
    (h : runIn (writeIndex config output names) w = (.ok (), w')) :
    w.tree.writeAll output [(config.dialect.indexFile, indexModule names)] = .ok w'.tree := by
  have hnames : names.isEmpty = false := by simpa using hsome
  rw [writeIndex, hnames] at h
  obtain ⟨written, between, hwrite, h⟩ := runIn_bind_eq_ok_iff.1 h
  cases written with
  | error e => exact absurd h runIn_throw_ne_ok
  | ok =>
    obtain ⟨-, rfl⟩ := runIn_pure_eq_ok_iff.1 h
    obtain ⟨t, hwritten, rfl⟩ := settle_eq_ok_iff.1 (runIn_lift_eq_ok_iff.1 hwrite)
    exact bind_eq_ok_iff.2 ⟨t, hwritten, rfl⟩

theorem runIn_writeBatch {request : BatchRequest} {report : BatchReport}
    {results : List (Job × Except JobError Conversion)} (hsome : report.converted ≠ [])
    (h : runIn (writeBatch config request results) w = (.ok report, w')) :
    ∃ t, w.tree.makeDirectories (request.output config) = .ok t ∧
      t.writeAll (request.output config) (files config request results) = .ok w'.tree ∧
      report.converted = (conversions results).map (·.name) ∧
      report.converted.length + report.failed = results.length := by
  obtain ⟨made, between, hmade, h⟩ := runIn_bind_eq_ok_iff.1 h
  cases made with
  | error e =>
    obtain ⟨_, _, hthrow, -⟩ := runIn_bind_eq_ok_iff.1 h
    exact absurd hthrow runIn_throw_ne_ok
  | ok =>
    obtain ⟨t, hdirectory, rfl⟩ := settle_eq_ok_iff.1 (runIn_lift_eq_ok_iff.1 hmade)
    obtain ⟨report', w₁, hresults, h⟩ := runIn_bind_eq_ok_iff.1 h
    obtain ⟨hwritten, hconverted, hcount⟩ := runIn_writeResults hresults
    have hnames : report'.converted = (conversions results).map (·.name) := hconverted
    refine ⟨t, hdirectory, ?_⟩
    dsimp only at h
    split at h
    next hindex =>
      obtain ⟨_, w₂, hwrite, h⟩ := runIn_bind_eq_ok_iff.1 h
      obtain ⟨rfl, rfl⟩ := runIn_pure_eq_ok_iff.1 h
      have hlast := runIn_writeIndex hsome hwrite
      rw [files, if_pos hindex, ← hnames]
      exact ⟨writeAll_append_eq_ok_iff.2 ⟨_, hwritten, hlast⟩, rfl, by simpa using hcount⟩
    next hindex =>
      obtain ⟨rfl, rfl⟩ := runIn_pure_eq_ok_iff.1 h
      rw [files, if_neg hindex, List.append_nil]
      exact ⟨hwritten, hnames, by simpa using hcount⟩

theorem runIn_closeBatch {output : String} {total : Nat} {report report' : BatchReport}
    (h : runIn (closeBatch output total report) w = (.ok report', w')) :
    report' = report ∧ report.converted ≠ [] ∧ w'.tree = w.tree := by
  obtain ⟨elapsed, w₁, helapsed, h⟩ := runIn_bind_eq_ok_iff.1 h
  obtain ⟨-, rfl⟩ := Prod.mk.inj (runIn_lift_eq_ok_iff.1 helapsed)
  obtain ⟨_, w₂, hcounts, h⟩ := runIn_bind_eq_ok_iff.1 h
  obtain ⟨_, w₃, houtput, h⟩ := runIn_bind_eq_ok_iff.1 h
  dsimp only at h
  split at h
  next =>
    obtain ⟨_, _, hthrow, -⟩ := runIn_bind_eq_ok_iff.1 h
    exact absurd hthrow runIn_throw_ne_ok
  next hsome =>
    obtain ⟨rfl, rfl⟩ := runIn_pure_eq_ok_iff.1 h
    exact ⟨rfl, by simpa using hsome,
      (runIn_notify_eq_ok _ houtput).trans (runIn_notify_eq_ok _ hcounts)⟩

theorem runIn_convertAll {accepts : Dialect → String → Bool} {request : BatchRequest}
    {jobs : List Job} {report : BatchReport} (hsome : jobs ≠ [])
    (h : runIn (convertAll accepts config request jobs) w = (.ok report, w')) :
    let results := jobs.map fun job => (job, job.outcome accepts config w.tree)
    ∃ t, w.tree.makeDirectories (request.output config) = .ok t ∧
      t.writeAll (request.output config) (files config request results) = .ok w'.tree ∧
      report.converted = (conversions results).map (·.name) ∧
      report.converted.length + report.failed = jobs.length ∧ report.converted ≠ [] := by
  have hjobs : jobs.isEmpty = false := by simpa using hsome
  rw [convertAll, hjobs] at h
  obtain ⟨_, w₁, hnotice, h⟩ := runIn_bind_eq_ok_iff.1 h
  obtain ⟨results, w₂, hresults, h⟩ := runIn_bind_eq_ok_iff.1 h
  obtain ⟨report', w₃, hwritten, hclosed⟩ := runIn_bind_eq_ok_iff.1 h
  obtain ⟨rfl, hconverted, htree⟩ := runIn_closeBatch hclosed
  obtain ⟨hanswer, hleft⟩ := runJobs_eq accepts config jobs w₁
  rw [lift_runJobs, runIn_lift_eq_ok_iff] at hresults
  rw [hresults, runIn_notify_eq_ok _ hnotice] at hanswer hleft
  subst hanswer
  obtain ⟨t, hmade, hfiles, hnames, hcount⟩ := runIn_writeBatch hconverted hwritten
  rw [hleft] at hmade
  rw [← htree] at hfiles
  exact ⟨t, hmade, hfiles, hnames, hcount.trans (List.length_map _), hconverted⟩

/-- A batch is the conversion of its jobs, if its directory is there. -/
theorem runIn_batchWith_eq (accepts : Dialect → String → Bool) (config : Config)
    (request : BatchRequest) (w : Memory) :
    runIn (batchWith accepts config request) w =
      if w.tree.isDirectory request.directory then
        runIn (convertAll accepts config request (request.jobs w.tree)) w
      else (.error (.directoryNotFound request.directory), w) := by
  have hstep : ∀ f : Bool → Command (StateM Memory) BatchReport,
      runIn (Workspace.isDirectory request.directory >>= f) w =
        runIn (f (w.tree.isDirectory request.directory)) w := fun _ => rfl
  rw [batchWith, hstep]
  cases w.tree.isDirectory request.directory <;> rfl

/-- A batch that does not fail has found nothing, or it has converted its drawings with the files as
they were and written what came of them. -/
theorem runIn_batchWith {accepts : Dialect → String → Bool} {request : BatchRequest}
    {report : BatchReport} (h : runIn (batchWith accepts config request) w = (.ok report, w')) :
    (request.jobs w.tree = [] ∧ report = {} ∧ w'.tree = w.tree) ∨
      ∃ t, w.tree.makeDirectories (request.output config) = .ok t ∧
        t.writeAll (request.output config)
          (files config request (request.results accepts config w.tree)) = .ok w'.tree ∧
        report.converted =
          (conversions (request.results accepts config w.tree)).map (·.name) ∧
        report.converted.length + report.failed = (request.jobs w.tree).length ∧
        report.converted ≠ [] := by
  rw [runIn_batchWith_eq] at h
  split at h
  next =>
    by_cases hnone : request.jobs w.tree = []
    · rw [hnone] at h
      obtain ⟨_, between, hnotice, h⟩ := runIn_bind_eq_ok_iff.1 h
      obtain ⟨rfl, rfl⟩ := runIn_pure_eq_ok_iff.1 h
      exact .inl ⟨hnone, rfl, runIn_notify_eq_ok _ hnotice⟩
    · exact .inr (runIn_convertAll hnone h)
  next => cases h

end Command

end Pictogram
