import TemplateGuards.Proofs.ContentReport
import TemplateGuards.Proofs.Deeds
import TemplateGuards.Proofs.Races

/-!
The exit code of a run.  A report has no output exactly when one of its diagnostics is an error, and
leaving out the warnings keeps both.  So the exit code, which counts errors after the warnings are
left out, tells whether each template was compiled, for every command alike.

* `Report.Consistent`: a report whose output and diagnostics agree, as all do that a run gathers;
* `emitAll_keepErrors`, `distinct_keepErrors`: what warnings do not change;
* `exitCode_check`, `exitCode_compileAll`: the exit code from the errors of the reports;
* `run_exitCode`: **the exit code from the outputs**, for every command.
-/

namespace TemplateGuards

variable {w : World} {words : List Text} {line : CommandLine} {c : Compiler} {config : Config}
  {race : Race CompileFault} {reports : List Report}

/-! ### Errors and outputs -/

namespace Report

/-- A report without an output has an error, and no other report has one. -/
def Consistent (r : Report) : Prop := r.output? = none ↔ r.hasErrors = true

@[simp] lemma hasErrors_keepErrors (r : Report) : r.keepErrors.hasErrors = r.hasErrors := by
  simp [hasErrors, keepErrors, List.any_filter]

end Report

/-- Whatever path and relative path a report carries, it is one on a text. -/
lemma Compiler.consistent_compileContent (c : Compiler) (path content relativePath : Text) :
    { c.compileContent path content with relativePath }.Consistent :=
  Report.output?_ofContent_eq_none_iff c.chain path content

/-- **The reports that a run gathers are consistent.** -/
lemma consistent_of_gather {files : List Text} (h : gather w c files race = .ok reports) :
    ∀ r ∈ reports, r.Consistent := by
  intro r hr
  obtain ⟨content, rfl⟩ | hpaths := gather_cases h
  · obtain rfl := List.mem_singleton.mp hr
    exact c.consistent_compileContent inputPath content inputName
  · obtain ⟨_, _, t, -, -, hcompile⟩ := Compiler.exists_of_mem_compilePaths hpaths r hr
    obtain ⟨content, -, rfl⟩ := Compiler.compileTarget_eq_ok_iff.mp hcompile
    exact c.consistent_compileContent t.path content t.relativePath

lemma any_hasErrors_iff (h : ∀ r ∈ reports, r.Consistent) :
    reports.any Report.hasErrors = true ↔ ∃ r ∈ reports, r.output? = none := by
  rw [List.any_eq_true]
  exact exists_congr fun r => and_congr_right fun hr => (h r hr).symm

@[simp] lemma CommandLine.any_hasErrors_select (line : CommandLine) (reports : List Report) :
    (line.select reports).any Report.hasErrors = reports.any Report.hasErrors := by
  rw [select]
  split_ifs
  · simp [List.any_map, Function.comp_def]
  · rfl

/-- The errors are counted over all diagnostics of all reports. -/
lemma Summary.hasErrors_ofReports (reports : List Report) :
    (ofReports reports).hasErrors = reports.any Report.hasErrors := by
  rw [Bool.eq_iff_iff, hasErrors, decide_eq_true_iff, ofReports, List.countP_pos_iff,
    List.any_eq_true]
  simp only [List.mem_flatMap, Report.hasErrors, List.any_eq_true, Diagnostic.isError]
  constructor
  · rintro ⟨d, ⟨r, hr, hd⟩, herror⟩
    exact ⟨r, hr, d, hd, herror⟩
  · rintro ⟨r, hr, d, hd, herror⟩
    exact ⟨d, ⟨r, hr, hd⟩, herror⟩

/-! ### The commands -/

lemma exitCode_check (w : World) (line : CommandLine) (reports : List Report) :
    (check w line reports).exitCode = if reports.any Report.hasErrors then 1 else 0 := by
  simp only [check, Outcome.exitCode, Summary.hasErrors_ofReports]
  cases reports.any Report.hasErrors <;> rfl

/-- Nothing can fail where all outputs are printed. -/
lemma emitAll_none (dryRun : Bool) (so : Delivery) (reports : List Report) :
    ∃ so', emitAll none dryRun so reports = (so', none) := by
  cases dryRun with
  | true => exact ⟨_, emitAll_true none so reports⟩
  | false =>
      rw [emitAll_false]
      exact ⟨_, Deed.performAll_of_print so fun deed => print_of_mem_deeds_none⟩

lemma exitCode_compileAll (w : World) (line : CommandLine) (dryRun : Bool)
    (reports : List Report) :
    (compileAll w line none dryRun reports).exitCode =
      if reports.any Report.hasErrors then 1 else 0 := by
  obtain ⟨so, hemit⟩ := emitAll_none dryRun ⟨[], w.disk⟩ reports
  simp only [compileAll, Option.map_none, hemit, Outcome.exitCode, Summary.hasErrors_ofReports]
  cases reports.any Report.hasErrors <;> rfl

/-! ### Warnings -/

/-- Warnings do not change what is printed and written. -/
lemma emitAll_keepErrors (outDir? : Option Text) (dryRun : Bool) (so : Delivery)
    (reports : List Report) :
    emitAll outDir? dryRun so (reports.map .keepErrors) = emitAll outDir? dryRun so reports := by
  cases dryRun with
  | true => rw [emitAll_true, emitAll_true, deeds_keepErrors]
  | false => rw [emitAll_false, emitAll_false, deeds_keepErrors]

lemma distinctFrom_keepErrors (outDir : Text) (earlier reports : List Report) :
    distinctFrom outDir (earlier.map .keepErrors) (reports.map .keepErrors) =
      distinctFrom outDir earlier reports := by
  induction reports generalizing earlier with
  | nil => rfl
  | cons r rest ih =>
      have hrival : rival? outDir (earlier.map .keepErrors) r.keepErrors =
          (rival? outDir earlier r).map .keepErrors := List.find?_map
      have hinput : r.keepErrors.isInput = r.isInput := rfl
      have hrest := ih (earlier ++ [r])
      rw [List.map_append, List.map_singleton] at hrest
      rw [List.map_cons, distinctFrom, distinctFrom, hrival, hinput]
      cases r.isInput with
      | true => exact hrest
      | false =>
          simp only [Bool.false_eq_true, if_false]
          cases rival? outDir earlier r with
          | none => exact hrest
          | some e => rfl

/-- Warnings do not change what a compilation prints and writes. -/
lemma compileAll_keepErrors (w : World) (line line' : CommandLine) (outDir? : Option Text)
    (dryRun : Bool) (reports : List Report) :
    (compileAll w line outDir? dryRun (reports.map .keepErrors)).output =
        (compileAll w line' outDir? dryRun reports).output ∧
      (compileAll w line outDir? dryRun (reports.map .keepErrors)).disk =
        (compileAll w line' outDir? dryRun reports).disk := by
  have hdistinct : outDir?.map (distinct · (reports.map .keepErrors)) =
      outDir?.map (distinct · reports) := by
    cases outDir? with
    | none => rfl
    | some outDir => exact congrArg some (distinctFrom_keepErrors outDir [] reports)
  simp only [compileAll, hdistinct, emitAll_keepErrors]
  split
  · exact ⟨rfl, rfl⟩
  · split <;> exact ⟨rfl, rfl⟩

/-! ### Runs -/

/-- A run whose files can be read is what its command makes of the reports. -/
lemma run_of_gather (hread : CommandLine.read words = .ok line) (hcommand : line.command ≠ .codes)
    (hshow : line.showConfig = false) (hconfig : configure w line = .ok config)
    (hcompiler : Compiler.ofConfig config = .ok c)
    (hgather : gather w c line.files race = .ok reports) :
    run w words race = conclude w line (line.select reports) := by
  have hfound : gatherWith w line config race = .ok reports := by
    rw [gatherWith_eq hcompiler, hgather]
  have hopening : opening w line race = .ok reports := by
    simp [opening, hconfig, hshow, hfound, Except.mapError]
  rw [run_eq hread hcommand, hopening]

/-- **The exit code tells whether each template was compiled.**  Where the files can be read, it is
1 if a report has no output and else 0, for the command that checks and for the one that compiles
without a directory, dry or not, in each format and with or without warnings.  Leaving out the
warnings changes neither what a compilation prints nor the files.  All this holds whatever the races
of the runs, in which files of a tree without links are read. -/
theorem run_exitCode (w : World) (line : CommandLine) :
    (∀ config c reports, configure w line = .ok config → Compiler.ofConfig config = .ok c →
      gather w c line.files = .ok reports →
      ∀ words command format errorsOnly verbose race,
        CommandLine.read words =
          .ok { line with command, format, errorsOnly, verbose, showConfig := false } →
        (command = .check ∨ ∃ dryRun, command = .compile none dryRun) →
        (run w words race).exitCode = if ∃ r ∈ reports, r.output? = none then 1 else 0) ∧
    ∀ words quiet outDir? dryRun race race',
      CommandLine.read words =
        .ok { line with command := .compile outDir? dryRun, errorsOnly := false } →
      CommandLine.read quiet =
        .ok { line with command := .compile outDir? dryRun, errorsOnly := true } →
      (run w quiet race').output = (run w words race).output ∧
        (run w quiet race').disk = (run w words race).disk := by
  constructor
  · intro config c reports hconfig hcompiler hgather words command format errorsOnly verbose race
      hread hcommand
    have herrors := any_hasErrors_iff (consistent_of_gather hgather)
    have hne : command ≠ .codes := by
      rintro rfl
      simp at hcommand
    rw [run_of_gather hread hne rfl hconfig hcompiler (gather_of_race hgather race)]
    simp only [← herrors]
    rcases hcommand with rfl | ⟨dryRun, rfl⟩
    · rw [conclude_check rfl, exitCode_check, CommandLine.any_hasErrors_select]
    · rw [conclude_compile rfl, exitCode_compileAll, CommandLine.any_hasErrors_select]
  · intro words quiet outDir? dryRun race race' hread hquiet
    -- the opening of a run does not look at its command and its flags
    have hopening : ∀ errorsOnly race, opening w
        { line with command := .compile outDir? dryRun, errorsOnly } race = opening w line race :=
      fun _ _ => rfl
    rw [run_eq hread (by simp), run_eq hquiet (by simp), hopening, hopening]
    obtain heq | ⟨_, _, -, -, h, h'⟩ := opening_race w line race race'
    · rw [heq]
      cases opening w line race' with
      | error outcome => exact ⟨rfl, rfl⟩
      | ok found => exact compileAll_keepErrors w _ _ outDir? dryRun found
    · rw [h, h']
      exact ⟨rfl, rfl⟩

/-- Two templates, of which one has an end marker too many and the other deserves a warning: each
command exits with 1, and the one that leaves out the warning prints the same text. -/
theorem run_exitCode_unexpectedEnd :
    let nested : Text := "@allows(p)@allows(q)x@endallows@endallows"
    let w : World :=
      ⟨⟨.directory [("a", .file (.text "@endallows")), ("b", .file (.text nested))], []⟩, "/u",
        .text [], false⟩
    let line : CommandLine :=
      ⟨.check, ["a", "b"].map String.toList, none, .human, none, some .warn, [], false, false,
        false⟩
    let config : Config := { Config.default with nesting? := some .warn }
    let c : Compiler := ⟨[.authorization Preset.blade.dialect .warn], config⟩
    let reports := [c.compileContent "a" "@endallows", c.compileContent "b" nested]
    let words : List Text := ["compile", "--nesting", "warn", "a", "b"]
    let quiet : List Text := ["compile", "--nesting", "warn", "--errors-only", "a", "b"]
    configure w line = .ok config ∧ Compiler.ofConfig config = .ok c ∧
    gather w c line.files = .ok reports ∧ (∃ r ∈ reports, r.output? = none) ∧
    (run w ["--nesting", "warn", "--errors-only", "a", "b"]).exitCode = 1 ∧
    (run w ["compile", "--nesting", "warn", "--dry-run", "-fjson", "a", "b"]).exitCode = 1 ∧
    (run w words).exitCode = 1 ∧ (run w quiet).output = (run w words).output := by
  intro nested w line config c reports words quiet
  have hconfig : configure w line = .ok config := by decide +kernel
  have hgather : gather w c line.files = .ok reports := by decide +kernel
  have hexists : ∃ r ∈ reports, r.output? = none := by decide +kernel
  obtain ⟨hcode, hquiet⟩ := run_exitCode w line
  have hone : ∀ words command format errorsOnly verbose, CommandLine.read words =
        .ok { line with command, format, errorsOnly, verbose, showConfig := false } →
      (command = .check ∨ ∃ dryRun, command = .compile none dryRun) →
      (run w words).exitCode = 1 := fun words command format errorsOnly verbose hread hcommand =>
    (hcode config c reports hconfig rfl hgather words command format errorsOnly verbose .inOrder
      hread hcommand).trans (if_pos hexists)
  have hwords : CommandLine.read words =
      .ok { line with command := .compile none false, errorsOnly := false } := by decide +kernel
  refine ⟨hconfig, rfl, hgather, hexists,
    hone _ .check .human true false (by decide +kernel) (.inl rfl),
    hone _ (.compile none true) .json false false (by decide +kernel) (.inr ⟨true, rfl⟩),
    hone _ (.compile none false) .human false false hwords (.inr ⟨false, rfl⟩), ?_⟩
  exact (hquiet words quiet none false .inOrder .inOrder hwords (by decide +kernel)).1

end TemplateGuards
