import MarkupTemplate.Proofs.DeepSamples
import MarkupTemplate.Sample.Trial

/-!
# The crashes of a campaign

The rows of digits in a random template are short, so on a stack without bound a trial ends with a compiled
or a rejected template. On a bounded stack a trial crashes exactly if rendering gets to an element for
which there is no room, and a random template can be deep enough for that.
-/

namespace MarkupTemplate.Sample

open Draw

section Trying

variable {stack : Stack} {strict : Bool} {clock : Clock} {sources : List Text} {source : Text}

theorem compiles_or_rejected (strict : Bool) (h : template.Reaches source) :
    (∃ output, compileText strict true source = .ok output) ∨
      ∃ e, compileText strict true source = .error (.template e) := by
  have hdigits := ensures_template.of_reaches h
  cases hcompile : (compile { strict, injectAssets := true } source).outcome with
  | ok result => exact .inl ⟨result.output, by rw [compileText, hcompile]; rfl⟩
  | error failure =>
    obtain ⟨e, rfl⟩ := template_of_digitsFit hdigits hcompile
    exact .inr ⟨e, by rw [compileText, hcompile]; rfl⟩

inductive Ends (stack : Stack) (strict : Bool) (source : Text) : Except Failure Text → Prop
  | compiled {output : Text} (hroom : ¬ Exhausts stack strict source) :
      Ends stack strict source (.ok output)
  | rejected {e : TemplateError} (hroom : ¬ Exhausts stack strict source) :
      Ends stack strict source (.error (.template e))
  | exhausted (hfull : Exhausts stack strict source) : Ends stack strict source (.error .tooDeep)

theorem ends_compileTextOn (stack : Stack) (strict : Bool) (h : template.Reaches source) :
    Ends stack strict source (compileTextOn stack strict true source) := by
  by_cases hfull : Exhausts stack strict source
  · rw [compileTextOn_of_exhausts hfull]
    exact .exhausted hfull
  · rw [compileTextOn_of_not_exhausts hfull]
    rcases compiles_or_rejected strict h with ⟨output, houtput⟩ | ⟨e, he⟩
    · rw [houtput]
      exact .compiled hfull
    · rw [he]
      exact .rejected hfull

theorem verdict_eq_crashed_iff {failure : Failure} (h : template.Reaches source) :
    verdict stack strict source = .crashed failure ↔
      Exhausts stack strict source ∧ failure = .tooDeep := by
  have hends := ends_compileTextOn stack strict h
  unfold verdict
  generalize compileTextOn stack strict true source = result at hends ⊢
  cases hends with
  | compiled hroom => simp [hroom]
  | rejected hroom => simp [hroom]
  | exhausted hfull => simp [hfull, eq_comm]

theorem mem_trials {number : Nat} {trial : Trial}
    (h : trial ∈ (trials stack strict clock number sources).1) :
    trial.source ∈ sources ∧ trial.verdict = verdict stack strict trial.source := by
  induction sources generalizing clock number with
  | nil => cases h
  | cons source sources ih =>
    rcases List.mem_cons.1 h with rfl | h
    · exact ⟨List.mem_cons_self, rfl⟩
    · obtain ⟨hmem, hverdict⟩ := ih h
      exact ⟨List.mem_cons_of_mem _ hmem, hverdict⟩

theorem map_source_trials {number : Nat} :
    (trials stack strict clock number sources).1.map Trial.source = sources := by
  induction sources generalizing clock number with
  | nil => rfl
  | cons source sources ih => exact congrArg (source :: ·) ih

theorem mem_crashes_iff {results : List Trial} {trial : Trial} {failure : Failure} :
    (trial, failure) ∈ crashes results ↔ trial ∈ results ∧ trial.verdict = .crashed failure := by
  have hfailure : ∀ t : Trial, t.failure? = some failure ↔ t.verdict = .crashed failure := by
    intro t
    unfold Trial.failure?
    split
    · next failure' hverdict => simp [hverdict]
    · next hverdict => simp [hverdict]
    · next hverdict => simp [hverdict]
  simp only [crashes, List.mem_filterMap, Option.map_eq_some_iff, Prod.mk.injEq]
  constructor
  · rintro ⟨t, ht, failure', hfail, rfl, rfl⟩
    exact ⟨ht, (hfailure t).1 hfail⟩
  · rintro ⟨ht, hverdict⟩
    exact ⟨trial, ht, failure, (hfailure trial).2 hverdict, rfl, rfl⟩

theorem countOf_add (results : List Trial) :
    countOf .compiled results + countOf .rejected results + (crashes results).length =
      results.length := by
  unfold countOf crashes
  induction results with
  | nil => rfl
  | cons trial results ih =>
    rw [List.countP_cons, List.countP_cons, List.filterMap_cons, List.length_cons, Trial.failure?]
    cases trial.verdict <;> simp <;> omega

end Trying

structure Report.Tells (stack : Stack) (strict : Bool) (sources : List Text) (report : Report) :
    Prop where
  counts : countOf .compiled report.results + countOf .rejected report.results +
    (crashes report.results).length = sources.length
  sound : ∀ crash ∈ crashes report.results, crash.2 = .tooDeep ∧ crash.1.source ∈ sources ∧
    Exhausts stack strict crash.1.source
  complete : ∀ source ∈ sources, Exhausts stack strict source →
    ∃ crash ∈ crashes report.results, crash.1.source = source
  passed : report.passed = true ↔
    (∀ source ∈ sources, ¬ Exhausts stack strict source) ∧ hangs report.results = []

theorem tells_of (stack : Stack) (strict : Bool) (clock : Clock) {sources : List Text}
    (h : ∀ source ∈ sources, template.Reaches source) :
    (Report.of stack strict clock sources).Tells stack strict sources := by
  have hsources : (Report.of stack strict clock sources).results.map Trial.source = sources :=
    map_source_trials
  have hsound : ∀ crash ∈ crashes (Report.of stack strict clock sources).results,
      crash.2 = .tooDeep ∧ crash.1.source ∈ sources ∧ Exhausts stack strict crash.1.source := by
    rintro ⟨trial, failure⟩ hcrash
    obtain ⟨htrial, hverdict⟩ := mem_crashes_iff.1 hcrash
    obtain ⟨hmem, hsame⟩ := mem_trials htrial
    obtain ⟨hfull, rfl⟩ := (verdict_eq_crashed_iff (h _ hmem)).1 (hsame.symm.trans hverdict)
    exact ⟨rfl, hmem, hfull⟩
  have hcomplete : ∀ source ∈ sources, Exhausts stack strict source →
      ∃ crash ∈ crashes (Report.of stack strict clock sources).results, crash.1.source = source := by
    intro source hmem hfull
    obtain ⟨trial, htrial, rfl⟩ := List.mem_map.1 (hsources.symm ▸ hmem)
    have hverdict := (mem_trials htrial).2.trans
      ((verdict_eq_crashed_iff (h _ hmem)).2 ⟨hfull, rfl⟩)
    exact ⟨(trial, .tooDeep), mem_crashes_iff.2 ⟨htrial, hverdict⟩, rfl⟩
  refine ⟨?_, hsound, hcomplete, ?_⟩
  · rw [countOf_add, ← List.length_map Trial.source, hsources]
  · rw [Report.passed, Bool.and_eq_true, List.isEmpty_iff, List.isEmpty_iff]
    refine and_congr_left fun _ => ⟨fun hnone source hmem hfull => ?_, fun hroom => ?_⟩
    · obtain ⟨crash, hcrash, -⟩ := hcomplete source hmem hfull
      rw [hnone] at hcrash
      cases hcrash
    · refine List.eq_nil_iff_forall_not_mem.2 fun crash hcrash => ?_
      obtain ⟨-, hmem, hfull⟩ := hsound crash hcrash
      exact hroom _ hmem hfull

/-- Whatever numbers a campaign draws, each of its templates compiles, is rejected, or runs out of stack,
and only the last is a crash. It does not happen to a template that nests no deeper than the stack holds;
it does to one that nests deeper and would compile without a bound. The report counts every trial once,
and all is well unless a template runs out of stack or a trial hangs. -/
theorem campaign_crashes_iff_exhausts (stack : Stack) (strict verbose : Bool) (clock : Clock)
    (count : Int) :
    (∀ source, template.Reaches source →
      Ends stack strict source (compileTextOn stack strict true source)) ∧
    (∀ source, stack.Holds (Node.depthAll (documentOf (tokenize source))) →
      ¬ Exhausts stack strict source) ∧
    (∀ source output, compileText strict true source = .ok output →
      ¬ stack.Holds (Node.depthAll (documentOf (tokenize source))) → Exhausts stack strict source) ∧
    (∃ sources, (times count.toNat template).Reaches sources) ∧
    (∀ sources, (times count.toNat template).Reaches sources →
      sources.length = count.toNat ∧
        (Report.of stack strict clock sources).Tells stack strict sources) ∧
    ∀ random, ∃ sources, (times count.toNat template).Reaches sources ∧
      campaign stack random clock count verbose strict =
        { output := (Report.of stack strict clock sources).output count verbose
          passed := (Report.of stack strict clock sources).passed
          random := (template.runTimes random count.toNat).2 } := by
  refine ⟨fun source => ends_compileTextOn stack strict,
    fun source hholds hfull => Render.not_runsOut_of_holds hholds hfull.2,
    fun source output houtput => (exhausts_iff_of_compileText houtput).2, ?_, fun sources hsources => ?_,
    fun random => ?_⟩
  · exact (ensures_template.times _).exists_reaches
  · obtain ⟨hlength, hall⟩ := reaches_times_iff.1 hsources
    exact ⟨hlength, tells_of stack strict clock hall⟩
  · exact ⟨_, ensures_template.reaches_runTimes random count.toNat, rfl⟩

/-- A thousand calls inside one another, three for each element. -/
def callStack : Stack :=
  .levels (1000 / 3)

theorem not_forall_campaign_passes :
    (¬ ∀ (strict : Bool) (clock : Clock) (count : Int) (sources : List Text),
      (times count.toNat template).Reaches sources →
        crashes (Report.of callStack strict clock sources).results = []) ∧
    ¬ ∀ (strict : Bool) (clock : Clock) (count : Int) (sources : List Text),
      (times count.toNat template).Reaches sources →
        (countOf .compiled (Report.of .unbounded strict clock sources).results +
          countOf .rejected (Report.of .unbounded strict clock sources).results : Int) = count := by
  constructor
  · intro hall
    have hreaches : template.Reaches (Part.sourceOf (deepParts 20)) :=
      reaches_template_deepParts (by decide) (by decide)
    have hsources : ∀ source ∈ [Part.sourceOf (deepParts 20)], template.Reaches source := by
      simpa using hreaches
    obtain ⟨output, houtput⟩ := Part.compileText_sourceOf false true (deepParts 20)
    have hfull : Exhausts callStack false (Part.sourceOf (deepParts 20)) := by
      rw [exhausts_iff_of_compileText houtput, depthAll_deepParts]
      decide
    obtain ⟨crash, hcrash, -⟩ :=
      (tells_of callStack false (.start []) hsources).complete _ List.mem_cons_self hfull
    have hnone := hall false (.start []) 1 [Part.sourceOf (deepParts 20)]
      (reaches_times_iff.2 ⟨rfl, hsources⟩)
    rw [hnone] at hcrash
    cases hcrash
  · intro hall
    have hnone := hall false (.start []) (-1) [] (reaches_times_iff.2 ⟨rfl, by simp⟩)
    cases hnone

end MarkupTemplate.Sample
