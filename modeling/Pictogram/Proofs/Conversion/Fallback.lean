import Pictogram.Conversion.Basic
import Pictogram.Proofs.Cleanup.Meaning

/-!
Conversions that go on without their optimizer. A cleanup fails only on malformed markup, so that
going on without it never saves a conversion.
-/

namespace Pictogram

open Markup

variable {text uri : String} {failure : OptimizerError} {options : Options}
  {markup : Except SourceError String}

/-- A cleanup that fails has met an error of the markup, and nothing else is ever wrong with it. -/
theorem unreadable_of_run_eq_error (h : Optimizer.cleanup.run text = .error failure) :
    ∃ error, cleanup text = .error error ∧ failure = .unreadable error := by
  cases hcleanup : cleanup text with
  | error error =>
    simp only [Optimizer.cleanup, hcleanup, Except.mapError, Except.error.injEq] at h
    exact ⟨error, rfl, h.symm⟩
  | ok cleaned =>
    simp only [Optimizer.cleanup, hcleanup, Except.mapError] at h
    cases h

/-- Whatever grows a forest can be cleaned. -/
theorem exists_cleanup_of_forest {forest : List Element} (h : (read text).forest = .ok forest) :
    ∃ cleaned, cleanup text = .ok cleaned := by
  obtain ⟨kept, -, hcleaned, -⟩ := exists_kept h
  refine ⟨.ofList (kept.flatMap (·.chars)), ?_⟩
  rw [cleanup, hcleaned]
  rfl

/-- What cannot be cleaned is malformed. -/
theorem malformed_of_cleanup_eq_error {error : Error} (h : cleanup text = .error error) :
    ∃ error, Element.parse text = .error (.malformed error) := by
  cases hforest : (read text).forest with
  | error error => exact ⟨error, by rw [Element.parse, hforest]⟩
  | ok forest =>
    obtain ⟨cleaned, hcleaned⟩ := exists_cleanup_of_forest hforest
    rw [hcleaned] at h
    cases h

theorem Optimizer.apply_of_ok {o : Optimizer} {cleaned : String} (h : o.run text = .ok cleaned) :
    o.apply text = (cleaned, none) := by
  rw [apply, h]

theorem Optimizer.apply_of_error {o : Optimizer} (h : o.run text = .error failure) :
    o.apply text = (text, some failure) := by
  rw [apply, h]

namespace Conversion

theorem ofSource_of_valid (hoptions : options.validate = .ok ()) (optimizer : Optimizer) :
    ofSource optimizer options uri (.ok text) =
      (ofMarkup optimizer options text).mapError ConversionError.noDrawing := by
  rw [ofSource, hoptions]
  rfl

/-- A conversion is made of markup that its source gave. -/
theorem exists_markup_of_ofSource {optimizer : Optimizer} {conversion : Conversion}
    (h : ofSource optimizer options uri markup = .ok conversion) :
    ∃ text, markup = .ok text ∧ ofMarkup optimizer options text = .ok conversion := by
  rw [ofSource] at h
  cases hoptions : options.validate with
  | error error =>
    rw [hoptions] at h
    cases h
  | ok =>
    rw [hoptions] at h
    cases markup with
    | error error => cases h
    | ok text =>
      refine ⟨text, rfl, ?_⟩
      change (ofMarkup optimizer options text).mapError ConversionError.noDrawing = _ at h
      cases hmarkup : ofMarkup optimizer options text with
      | error error =>
        rw [hmarkup] at h
        cases h
      | ok made =>
        rw [hmarkup] at h
        exact congrArg Except.ok (Except.ok.inj h)

/-- Markup that cannot be cleaned holds no drawing. -/
theorem ofMarkup_of_cleanup_eq_error (options : Options)
    (h : Optimizer.cleanup.run text = .error failure) :
    ∃ error, ofMarkup .cleanup options text = .error (.malformed error) := by
  obtain ⟨cause, hcleanup, -⟩ := unreadable_of_run_eq_error h
  obtain ⟨error, hparse⟩ := malformed_of_cleanup_eq_error hcleanup
  refine ⟨error, ?_⟩
  rw [ofMarkup, Optimizer.apply_of_error h]
  simp only [hparse]
  rfl

theorem optimized_of_ofMarkup {conversion : Conversion}
    (h : ofMarkup .cleanup options text = .ok conversion) : conversion.optimized := by
  cases hrun : Optimizer.cleanup.run text with
  | error failure =>
    obtain ⟨error, hmarkup⟩ := ofMarkup_of_cleanup_eq_error options hrun
    rw [hmarkup] at h
    cases h
  | ok cleaned =>
    rw [ofMarkup, Optimizer.apply_of_ok hrun] at h
    cases hparse : Element.parse cleaned with
    | error error =>
      simp only [hparse, Except.map] at h
      cases h
    | ok root =>
      simp only [hparse, Except.map, Except.ok.injEq] at h
      subst h
      rfl

/-- The cleanup fails on malformed markup only. Hence a conversion that succeeds, from whatever
source, was made of the cleaned text, and one whose markup cannot be cleaned ends with the error of
the markup. -/
theorem cleanup_failure_is_final :
    (∀ text failure, Optimizer.cleanup.run text = .error failure →
      (∃ error, failure = .unreadable error) ∧
        ∃ error, Element.parse text = .error (.malformed error)) ∧
    ∀ (options : Options) (uri : String) (markup : Except SourceError String),
      (∀ conversion, ofSource .cleanup options uri markup = .ok conversion →
        conversion.optimized) ∧
      ∀ text failure, options.validate = .ok () → markup = .ok text →
        Optimizer.cleanup.run text = .error failure →
          ∃ error, ofSource .cleanup options uri markup =
            .error (.noDrawing (.malformed error)) := by
  refine ⟨fun text failure hrun => ?_, fun options uri markup => ⟨fun conversion h => ?_, ?_⟩⟩
  · obtain ⟨error, hcleanup, hfailure⟩ := unreadable_of_run_eq_error hrun
    exact ⟨⟨error, hfailure⟩, malformed_of_cleanup_eq_error hcleanup⟩
  · obtain ⟨text, -, hmarkup⟩ := exists_markup_of_ofSource h
    exact optimized_of_ofMarkup hmarkup
  · rintro text failure hoptions rfl hrun
    obtain ⟨error, hmarkup⟩ := ofMarkup_of_cleanup_eq_error options hrun
    refine ⟨error, ?_⟩
    rw [ofSource_of_valid hoptions, hmarkup]
    rfl

/-- A drawing whose innermost element is not closed first is given up for its markup. -/
theorem cleanup_failure_is_final_crossing :
    Optimizer.cleanup.run "<svg><g></svg>" = .error (.unreadable (.wrongClosing "g" "svg")) ∧
      ∃ error, ofSource .cleanup { name := "Icon" } "<inline>" (.ok "<svg><g></svg>") =
        .error (.noDrawing (.malformed error)) := by
  have hrun : Optimizer.cleanup.run "<svg><g></svg>" =
      .error (.unreadable (.wrongClosing "g" "svg")) := by
    decide +kernel
  refine ⟨hrun, (cleanup_failure_is_final.2 _ _ _).2 _ _ ?_ rfl hrun⟩
  decide +kernel

end Conversion

end Pictogram
