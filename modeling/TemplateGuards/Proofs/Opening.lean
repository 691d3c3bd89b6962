import TemplateGuards.Proofs.ReportNames

/-!
A run up to its command.  Whatever its command is, a run settles its configuration, which it may
only show, and then compiles its files without writing anything.  What the command makes of the
reports comes after that, and only then can the run fail at a file that it creates or writes.

* `opening`, `conclude`: the part of a run before its command, and the command;
* `run_eq`: a run is one after the other;
* `MakesReports`, `opening_cases`: the reports that a run makes, and what it comes to without them;
* `run_compile_cases`: a run that compiles.
-/

namespace TemplateGuards

variable {w : World} {words : List Text} {line : CommandLine} {config : Config}
  {race : Race CompileFault} {failure : Failure} {reports : List Report}

/-- Does the run fail while it creates or writes a file? -/
def Failure.isDelivery : Failure → Bool
  | creating .. => true
  | writing .. => true
  | _ => false

/-! ### The parts of a run -/

/-- The reports on the files of a command line under a configuration, with their warnings. -/
def gatherWith (w : World) (line : CommandLine) (config : Config) (race : Race CompileFault) :
    Except Failure (List Report) := do
  let compiler ← (Compiler.ofConfig config).mapError .setup
  gather w compiler line.files race

/-- The part of a run in which its command does not matter: the reports on its files, or the
outcome where it comes to none. -/
def opening (w : World) (line : CommandLine) (race : Race CompileFault) :
    Except Outcome (List Report) :=
  match configure w line with
  | .error failure => .error (failing ⟨[], w.disk⟩ failure)
  | .ok config =>
    if line.showConfig then
      match showConfig config with
      | .error failure => .error (failing ⟨[], w.disk⟩ failure)
      | .ok output => .error { ending := .done true, output, errors := [], disk := w.disk }
    else (gatherWith w line config race).mapError (failing ⟨[], w.disk⟩)

/-- What the command of a run makes of the reports. -/
def conclude (w : World) (line : CommandLine) (reports : List Report) : Outcome :=
  match line.command with
  | .compile outDir? dryRun => compileAll w line outDir? dryRun reports
  | _ => check w line reports

lemma conclude_check (h : line.command = .check) :
    conclude w line reports = check w line reports := by
  simp only [conclude, h]

lemma conclude_compile {outDir? : Option Text} {dryRun : Bool}
    (h : line.command = .compile outDir? dryRun) :
    conclude w line reports = compileAll w line outDir? dryRun reports := by
  simp only [conclude, h]

lemma gatherWith_eq {c : Compiler} (h : Compiler.ofConfig config = .ok c) :
    gatherWith w line config race = gather w c line.files race := by
  rw [gatherWith, h]
  rfl

lemma reportsOn_eq (w : World) (line : CommandLine) (config : Config)
    (race : Race CompileFault) :
    reportsOn w line config race = (gatherWith w line config race).map line.select := by
  simp only [reportsOn, gatherWith]
  cases (Compiler.ofConfig config).mapError Failure.setup with
  | error failure => rfl
  | ok c =>
      change (gather w c line.files race >>= fun found => pure (line.select found)) =
        (gather w c line.files race).map line.select
      cases gather w c line.files race <;> rfl

/-- **A run is its opening, and what its command makes of the reports.** -/
lemma run_eq (hread : CommandLine.read words = .ok line) (hcommand : line.command ≠ .codes) :
    run w words race =
      match opening w line race with
      | .ok reports => conclude w line (line.select reports)
      | .error outcome => outcome := by
  simp only [run, hread]
  rw [runLine]
  split
  · contradiction
  simp only [runWith, opening, reportsOn_eq]
  cases configure w line with
  | error failure => rfl
  | ok config =>
      cases line.showConfig with
      | true =>
          simp only [bind, Except.bind, if_true]
          cases showConfig config <;> rfl
      | false =>
          simp only [bind, Except.bind, Bool.false_eq_true, if_false, conclude]
          cases gatherWith w line config race with
          | error failure => rfl
          | ok found =>
              simp only [Except.map, Except.mapError]
              cases line.command <;> rfl

/-- A run ends where its opening does not come to reports. -/
lemma run_of_opening_eq_error {outcome : Outcome} (hread : CommandLine.read words = .ok line)
    (hcommand : line.command ≠ .codes) (h : opening w line race = .error outcome) :
    run w words race = outcome := by
  rw [run_eq hread hcommand, h]

/-! ### Reports and failures -/

lemma not_isDelivery_of_configure (h : configure w line = .error failure) :
    failure.isDelivery = false := by
  rw [configure, bind_eq_error_iff] at h
  rcases h with h | ⟨loaded, -, h⟩
  · obtain ⟨fault, -, rfl⟩ := mapError_eq_error_iff.mp h
    rfl
  · split at h
    · cases h
    · cases h
      rfl

lemma not_isDelivery_of_showConfig (h : showConfig config = .error failure) :
    failure.isDelivery = false := by
  rw [showConfig, bind_eq_error_iff] at h
  rcases h with h | ⟨dialect, -, h⟩
  · obtain ⟨fault, -, rfl⟩ := mapError_eq_error_iff.mp h
    rfl
  · cases h

lemma not_isDelivery_of_gatherWith (h : gatherWith w line config race = .error failure) :
    failure.isDelivery = false := by
  rw [gatherWith, bind_eq_error_iff] at h
  rcases h with h | ⟨c, -, h⟩
  · obtain ⟨fault, -, rfl⟩ := mapError_eq_error_iff.mp h
    rfl
  · rw [gather] at h
    split_ifs at h
    · cases h
      rfl
    · split at h
      · cases h
      · cases h
        rfl
    · obtain ⟨fault, -, rfl⟩ := mapError_eq_error_iff.mp h
      rfl

/-- Under one configuration the same reports are gathered whatever the race. -/
lemma gatherWith_of_race (h : gatherWith w line config race = .ok reports)
    (race' : Race CompileFault) : gatherWith w line config race' = .ok reports := by
  rw [gatherWith, bind_eq_ok_iff] at h ⊢
  obtain ⟨c, hc, hfound⟩ := h
  exact ⟨c, hc, gather_of_race hfound race'⟩

/-- The reports that a run makes, which are the same whatever the race; where the configuration is
shown it makes none. -/
def MakesReports (w : World) (line : CommandLine) (reports : List Report) : Prop :=
  ∃ config, configure w line = .ok config ∧
    if line.showConfig then reports = [] else reportsOn w line config = .ok reports

lemma MakesReports.hasPlace (h : MakesReports w line reports) (hroot : w.disk.root.Named) :
    ∀ r ∈ reports, ∃ names, r.HasPlace names := by
  obtain ⟨config, -, hreports⟩ := h
  split_ifs at hreports
  · simp [hreports]
  · exact hasPlace_of_reportsOn hroot hreports

/-- The opening of a run fails, or shows the configuration, or comes to reports. -/
lemma opening_cases (w : World) (line : CommandLine) (race : Race CompileFault) :
    (∃ failure : Failure, failure.isDelivery = false ∧
      opening w line race = .error (failing ⟨[], w.disk⟩ failure)) ∨
    (line.showConfig = true ∧ MakesReports w line [] ∧ ∃ output, opening w line race =
      .error { ending := .done true, output, errors := [], disk := w.disk }) ∨
    line.showConfig = false ∧ ∃ reports, opening w line race = .ok reports ∧
      MakesReports w line (line.select reports) := by
  rw [opening]
  cases hconfig : configure w line with
  | error failure => exact .inl ⟨failure, not_isDelivery_of_configure hconfig, rfl⟩
  | ok config =>
      cases hshow : line.showConfig with
      | true =>
          have hmakes : MakesReports w line [] := ⟨config, hconfig, by simp [hshow]⟩
          cases hshown : showConfig config with
          | error failure =>
              exact .inl ⟨failure, not_isDelivery_of_showConfig hshown, by simp [hshown]⟩
          | ok output => exact .inr (.inl ⟨rfl, hmakes, output, by simp [hshown]⟩)
      | false =>
          cases hfound : gatherWith w line config race with
          | error failure =>
              exact .inl ⟨failure, not_isDelivery_of_gatherWith hfound, by
                simp [hfound, Except.mapError]⟩
          | ok found =>
              have hreports : reportsOn w line config = .ok (line.select found) := by
                rw [reportsOn_eq, gatherWith_of_race hfound .inOrder, Except.map]
              exact .inr (.inr ⟨rfl, found, by simp [hfound, Except.mapError], config, hconfig, by
                simpa [hshow] using hreports⟩)

/-! ### Compilations -/

section CompileAll

variable {outDir? : Option Text} {dryRun : Bool} {so : Delivery}

lemma compileAll_of_collision {c : Collision}
    (h : outDir?.map (distinct · reports) = some (.error c)) :
    compileAll w line outDir? dryRun reports = failing ⟨[], w.disk⟩ (.collision c) := by
  simp [compileAll, h]

/-- A compilation fails at the first output that cannot be delivered. -/
lemma compileAll_of_failed (h : ∀ c, outDir?.map (distinct · reports) ≠ some (.error c))
    (hemit : emitAll outDir? dryRun ⟨[], w.disk⟩ reports = (so, some failure)) :
    compileAll w line outDir? dryRun reports = failing so failure := by
  simp only [compileAll, hemit]

/-- A compilation is done when all outputs are delivered, whatever it then says of the reports. -/
lemma compileAll_of_done (h : ∀ c, outDir?.map (distinct · reports) ≠ some (.error c))
    (hemit : emitAll outDir? dryRun ⟨[], w.disk⟩ reports = (so, none)) :
    ∃ errors, compileAll w line outDir? dryRun reports =
      { ending := .done !(Summary.ofReports reports).hasErrors, output := so.output, errors,
        disk := so.disk } := by
  simp only [compileAll, hemit]
  exact ⟨_, rfl⟩

end CompileAll

/-- What a run that compiles comes to: it fails before there are reports, or shows the
configuration, or compiles the reports that it makes. -/
lemma run_compile_cases {outDir? : Option Text} {dryRun : Bool}
    (hread : CommandLine.read words = .ok line)
    (hcommand : line.command = .compile outDir? dryRun) :
    (∃ failure, run w words race = failing ⟨[], w.disk⟩ failure) ∨
    (line.showConfig = true ∧ MakesReports w line [] ∧ ∃ output, run w words race =
      { ending := .done true, output, errors := [], disk := w.disk }) ∨
    ∃ reports, MakesReports w line reports ∧
      run w words race = compileAll w line outDir? dryRun reports := by
  have hrun := @run_eq w words line race hread (by simp [hcommand])
  obtain ⟨failure, -, h⟩ | ⟨hshow, hmakes, output, h⟩ | ⟨-, found, h, hmakes⟩ :=
    opening_cases w line race
  · exact .inl ⟨failure, by rw [hrun, h]⟩
  · exact .inr (.inl ⟨hshow, hmakes, output, by rw [hrun, h]⟩)
  · exact .inr (.inr ⟨_, hmakes, by
      rw [hrun, h]
      exact conclude_compile hcommand⟩)

end TemplateGuards
