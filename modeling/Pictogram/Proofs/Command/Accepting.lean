import Pictogram.Proofs.Command.Naming
import Pictogram.Proofs.Command.Reporting
import Pictogram.Proofs.Component.Capitalizing
import Pictogram.Proofs.Conversion.Fallback

/-!
Names that a command chooses by itself. Those of the jobs of a batch and the one of a conversion that
is given none are derived from file names, and no conversion is refused for them.
-/

namespace Pictogram

open ComponentName

section Names

variable {taken paths : List String} {base name : String} {job : Job}

theorem Job.capitalized_numbered (h : Capitalized base) (k : Nat) :
    Capitalized (numbered base k) := by
  refine h.append fun c hc => ?_
  rw [Nat.toString_eq_ofList_toDigits, String.toList_ofList] at hc
  have hdigit := Nat.isDigit_of_mem_toDigits (by decide) (by decide) hc
  rw [Char.isAlphanum, hdigit, Bool.or_true]

theorem Job.FirstFree.capitalized (h : FirstFree taken base name) (hbase : Capitalized base) :
    Capitalized name := by
  cases h with
  | base => exact hbase
  | numbered k => exact capitalized_numbered hbase k

/-- Every job has a capitalized name, with or without a number. -/
theorem Job.capitalized_of_mem_plan (h : job ∈ plan paths) : Capitalized job.name := by
  obtain ⟨before, after, hplan⟩ := List.append_of_mem h
  exact (firstFree_of_planAfter hplan).capitalized (capitalized_derive _)

theorem ComponentName.capitalized_ofSource (source : String) : Capitalized (ofSource source) := by
  rw [ofSource]
  split <;> exact capitalized_derive _

end Names

namespace Conversion

/-- Options that can be followed are not what a conversion fails for. -/
theorem ofSource_ne_badOptions {options : Options} (h : options.validate = .ok ())
    (optimizer : Optimizer) (uri : String) (markup : Except SourceError String) (e : OptionError) :
    ofSource optimizer options uri markup ≠ .error (.badOptions e) := by
  intro hfailed
  cases markup with
  | error cause =>
    rw [ofSource, h] at hfailed
    cases hfailed
  | ok text =>
    rw [ofSource_of_valid h] at hfailed
    cases hmade : ofMarkup optimizer options text with
    | error cause =>
      rw [hmade] at hfailed
      cases hfailed
    | ok conversion =>
      rw [hmade] at hfailed
      cases hfailed

end Conversion

namespace Command

variable {α β : Type} {x : Command (StateM Memory) α} {f : α → Command (StateM Memory) β}
  {failure : CommandError} {config : Config}

/-- Whether a command never fails for the options of a conversion. -/
def AcceptsOptions (x : Command (StateM Memory) α) : Prop :=
  ∀ w label e, (runIn x w).1 ≠ .error (.conversionFailed label (.badOptions e))

section Accepts

theorem acceptsOptions_lift (action : StateM Memory α) :
    AcceptsOptions (ExceptT.lift action) := by
  intro w label e
  change (.ok (action w).1 : Except CommandError α) ≠ _
  simp

theorem acceptsOptions_throw (h : ∀ label e, failure ≠ .conversionFailed label (.badOptions e)) :
    AcceptsOptions (throw failure : Command (StateM Memory) α) := by
  intro w label e hfailed
  exact h label e (Except.error.inj hfailed)

/-- What follows a command needs to accept options only where the command has an answer. -/
theorem AcceptsOptions.bind (hx : AcceptsOptions x)
    (hf : ∀ a w w', runIn x w = (.ok a, w') → AcceptsOptions (f a)) :
    AcceptsOptions (x >>= f) := by
  intro w label e hfailed
  change (ExceptT.bindCont f (runIn x w).1 (runIn x w).2).1 = _ at hfailed
  rcases hrun : runIn x w with ⟨cause | a, w'⟩
  · rw [hrun] at hfailed
    cases hfailed
    exact hx w label e (by rw [hrun])
  · rw [hrun] at hfailed
    exact hf a w w' hrun w' label e hfailed

/-- A command that is run only sometimes needs to accept options by itself. -/
theorem AcceptsOptions.after {p : Prop} [Decidable p] {first : Command (StateM Memory) PUnit}
    (hfirst : AcceptsOptions first) (hx : AcceptsOptions x) :
    AcceptsOptions (if p then first >>= fun _ => x else x) := by
  split
  · exact hfirst.bind fun _ _ _ _ => hx
  · exact hx

end Accepts

theorem acceptsOptions_requestedSource (source : String) :
    AcceptsOptions (requestedSource source) := by
  rw [requestedSource]
  split
  · refine .bind (acceptsOptions_lift _) fun result _ _ _ => ?_
    cases result with
    | error e => exact acceptsOptions_throw (by simp)
    | ok text => exact acceptsOptions_lift (pure _)
  · exact acceptsOptions_lift (pure _)

/-- A conversion that is asked for with options that can be followed does not fail for them. -/
theorem acceptsOptions_convert {request : ConvertRequest}
    (h : (config.options (request.name?.getD (ofSource request.source))).validate = .ok ()) :
    AcceptsOptions (convert config request) := by
  rw [convert]
  refine .bind (acceptsOptions_requestedSource _) fun source _ _ _ => ?_
  dsimp only
  rw [lift_tryConvert]
  refine .bind (acceptsOptions_lift _) fun result w w' hresult => ?_
  cases result with
  | error cause =>
    refine acceptsOptions_throw fun label e hsame => ?_
    obtain ⟨-, rfl⟩ := CommandError.conversionFailed.inj hsame
    have hconverted := tryConvert_fst config.optimizer
      (config.options (request.name?.getD (ofSource request.source))) source w
    rw [runIn_lift_eq_ok_iff.1 hresult] at hconverted
    exact Conversion.ofSource_ne_badOptions h _ _ _ _ hconverted.symm
  | ok conversion =>
    -- What is left are notices, the check and the writing, of which the last two fail by themselves.
    refine .after (acceptsOptions_lift _) (.after (acceptsOptions_throw (by simp)) ?_)
    cases request.target? with
    | none => exact acceptsOptions_lift _
    | some path =>
      refine .bind (acceptsOptions_lift _) fun written _ _ _ => ?_
      cases written with
      | error e => exact acceptsOptions_throw (by simp)
      | ok => exact acceptsOptions_lift _

/-- A job whose name is accepted does not fail for its options. -/
theorem outcome_ne_badOptions {accepts : Dialect → String → Bool} {t : FileTree} {job : Job}
    (h : (config.options job.name).validate = .ok ()) (e : OptionError) :
    job.outcome accepts config t ≠ .error (.conversion (.badOptions e)) := by
  intro hfailed
  rw [Job.outcome_eq, tryConvert_fst] at hfailed
  split at hfailed
  next cause hcause =>
    obtain rfl := JobError.conversion.inj (Except.error.inj hfailed)
    exact Conversion.ofSource_ne_badOptions h _ _ _ _ hcause
  next =>
    split at hfailed
    · cases hfailed
    · cases hfailed

/-- Whatever text a name is derived from, it is accepted, it is capitalized and it is the name of
itself. The names of all jobs and of conversions that are given none are accepted as well, so that
neither of them fails for its options. -/
theorem derived_names_accepted :
    (∀ text : String,
      (∀ dialect props, Options.validate { name := derive text, dialect, props } = .ok ()) ∧
        Capitalized (derive text) ∧ derive (derive text) = derive text) ∧
    (∀ paths, ∀ job ∈ Job.plan paths, ∀ dialect props,
      Options.validate { name := job.name, dialect, props } = .ok ()) ∧
    (∀ source dialect props,
      Options.validate { name := ofSource source, dialect, props } = .ok ()) ∧
    (∀ accepts config paths w,
      ∀ result ∈ ((runJobs accepts config (Job.plan paths) : StateM Memory _) w).1,
        ∀ e, result.2 ≠ .error (.conversion (.badOptions e))) ∧
    ∀ (config : Config) (request : ConvertRequest), request.name? = none →
      ∀ w label e, (runIn (convert config request) w).1 ≠
        .error (.conversionFailed label (.badOptions e)) := by
  refine ⟨fun text => ⟨(capitalized_derive text).validate, capitalized_derive text,
    (capitalized_derive text).derive_eq⟩, fun paths job hjob =>
    (Job.capitalized_of_mem_plan hjob).validate, fun source =>
    (capitalized_ofSource source).validate, ?jobs, ?conversion⟩
  case jobs =>
    intro accepts config paths w result hresult
    rw [(runJobs_eq accepts config (Job.plan paths) w).1] at hresult
    obtain ⟨job, hjob, rfl⟩ := List.mem_map.1 hresult
    exact outcome_ne_badOptions ((Job.capitalized_of_mem_plan hjob).validate _ _)
  case conversion =>
    intro config request hname
    refine acceptsOptions_convert ?_
    rw [hname]
    exact (capitalized_ofSource request.source).validate _ _

/-- Two files whose names begin with a digit, and a conversion that is told no name. -/
theorem derived_names_accepted_digits :
    (⟨"b/2fa.svg", "Svg2fa2"⟩ : Job) ∈ Job.plan ["a/2fa.svg", "b/2fa.svg"] ∧
      Options.validate { name := "Svg2fa2" } = .ok () ∧
      (∃ result ∈ ((runJobs (fun _ _ => true) {} (Job.plan ["a/2fa.svg", "b/2fa.svg"]) :
          StateM Memory _) drawer).1,
        result.1 = ⟨"b/2fa.svg", "Svg2fa2"⟩ ∧ ∀ e, result.2 ≠ .error (.conversion (.badOptions e))) ∧
      (⟨"icons/2fa.svg", none, none, false, false⟩ : ConvertRequest).name? = none ∧
      ∀ label e, (runIn (convert {} ⟨"icons/2fa.svg", none, none, false, false⟩) drawer).1 ≠
        .error (.conversionFailed label (.badOptions e)) := by
  have hplan : Job.plan ["a/2fa.svg", "b/2fa.svg"] =
      [⟨"a/2fa.svg", "Svg2fa"⟩, ⟨"b/2fa.svg", "Svg2fa2"⟩] := by
    decide +kernel
  have hjob : (⟨"b/2fa.svg", "Svg2fa2"⟩ : Job) ∈ Job.plan ["a/2fa.svg", "b/2fa.svg"] := by
    rw [hplan]
    simp
  refine ⟨hjob, derived_names_accepted.2.1 _ _ hjob _ _, ?_, rfl,
    derived_names_accepted.2.2.2.2 {} _ rfl drawer⟩
  have hresult := List.mem_map_of_mem (f := fun job : Job =>
    (job, job.outcome (fun _ _ => true) {} drawer.tree)) hjob
  rw [← (runJobs_eq (fun _ _ => true) {} _ drawer).1] at hresult
  exact ⟨_, hresult, rfl, derived_names_accepted.2.2.2.1 _ _ _ _ _ hresult⟩

end Command

end Pictogram
