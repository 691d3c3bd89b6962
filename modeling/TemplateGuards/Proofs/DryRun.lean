import TemplateGuards.Proofs.Deeds
import TemplateGuards.Proofs.Emission
import TemplateGuards.Proofs.Races

/-!
Dry runs.  A dry run compiles the same templates as the real one and refuses the same command lines.
It tells of each output what the real run does with it, in the same order, and does nothing.

* `Foretold`: a dry run that tells of the deeds which the real run does;
* `files_of_performAll`: the files after deeds that are all done;
* `run_compile_pair`: the two runs up to their first output, where their openings are one;
* `run_dryRun_of_opening`: what a dry run then foretells;
* `run_dryRun`: **a dry run foretells the real one**, each run with a race of its own;
* `run_dryRun_not_same`: they may complain of different files.
-/

namespace TemplateGuards

variable {w : World} {line : CommandLine} {outDir? : Option Text} {race race' : Race CompileFault}
  {reports : List Report}

/-! ### Deeds and files -/

/-- The deeds that write are those of the reports whose outputs are written. -/
lemma write_mem_deeds_iff {outDir destination output : Text} :
    .write destination output ∈ deeds (some outDir) reports ↔
      ∃ r ∈ reports, r.Writes output ∧ r.destination outDir = destination := by
  rw [deeds, List.mem_filterMap]
  refine exists_congr fun r => and_congr_right fun _ => ?_
  constructor
  · intro h
    obtain ⟨output', hout, hdeed⟩ := Option.map_eq_some_iff.mp h
    cases hinput : r.isInput with
    | true => simp [Report.deed, hinput] at hdeed
    | false =>
        obtain ⟨hdestination, rfl⟩ : r.destination outDir = destination ∧ output' = output := by
          simpa [Report.deed, hinput] using hdeed
        exact ⟨⟨hout, by simpa [Report.isInput] using hinput⟩, hdestination⟩
  · rintro ⟨hw, rfl⟩
    simp [hw.output, Report.deed, hw.isInput]

/-- A dry run tells of the deeds which the real run does, and the real run does no others. -/
structure Foretold (before : Disk) (dry real : Outcome) (deeds : List Deed) : Prop where
  /-- The dry run prints one line for each deed, in order. -/
  announced : dry.output = deeds.flatMap Deed.announcement
  /-- The real run does the deeds in order, and none of them fails. -/
  performed : Deed.performAll ⟨[], before⟩ deeds = (⟨real.output, real.disk⟩, none)
  /-- The real run prints the outputs of the deeds that print. -/
  shown : real.output = deeds.flatMap Deed.shown
  /-- The output of each deed that writes stands in its file. -/
  written : ∀ destination output, .write destination output ∈ deeds →
    real.disk.read destination = .ok output
  /-- No other file is created or changed. -/
  unchanged : ∀ place, (∀ destination output, .write destination output ∈ deeds →
      real.disk.locate destination ≠ .ok place) →
    ∀ content, real.disk.entryAt? place = some (.file content) ↔
      before.entryAt? place = some (.file content)

/-- Deeds that are all done leave the outputs in their files, and every other file as it was. -/
lemma files_of_performAll {before : Disk} {so : Delivery}
    (hplaces : ∀ r ∈ reports, ∃ names, r.HasPlace names)
    (hapart : ∀ c, outDir?.map (distinct · reports) ≠ some (.error c))
    (h : Deed.performAll ⟨[], before⟩ (deeds outDir? reports) = (so, none)) :
    (∀ destination output, .write destination output ∈ deeds outDir? reports →
      so.disk.read destination = .ok output) ∧
    ∀ place, (∀ destination output, .write destination output ∈ deeds outDir? reports →
        so.disk.locate destination ≠ .ok place) →
      ∀ content, so.disk.entryAt? place = some (.file content) ↔
        before.entryAt? place = some (.file content) := by
  cases outDir? with
  | none =>
      have hprint : ∀ deed ∈ deeds none reports, ∃ path output, deed = .print path output :=
        fun deed => print_of_mem_deeds_none
      obtain rfl : ⟨[] ++ (deeds none reports).flatMap Deed.shown, before⟩ = so := by
        simpa [Deed.performAll_of_print _ hprint] using h
      refine ⟨fun destination output h => ?_, fun _ _ _ => Iff.rfl⟩
      obtain ⟨_, _, h⟩ := hprint _ h
      cases h
  | some outDir =>
      have hdistinct : distinct outDir reports = .ok () := by
        cases hd : distinct outDir reports with
        | ok _ => rfl
        | error c => exact absurd (by simp [hd]) (hapart c)
      have hemitted : Emitted outDir reports ⟨[], before⟩ so :=
        emitted_of_emitAll hplaces (distinct_eq_ok_iff.mp hdistinct)
          ((emitAll_false _ _ reports).trans h)
      constructor
      · intro destination output h
        obtain ⟨r, hr, hw, rfl⟩ := write_mem_deeds_iff.mp h
        exact hemitted.read hr (hplaces r hr) hw
      · intro place hplace
        refine hemitted.unchanged fun r hr output hw => ?_
        exact hplace _ output (write_mem_deeds_iff.mpr ⟨r, hr, hw, rfl⟩)

/-! ### The two runs -/

/-- Where their openings are one, the two runs are one up to their first output: they end there with
an outcome that leaves the disk, or there are reports that are not written to one file. -/
lemma run_compile_pair {dry real : List Text}
    (hdry : CommandLine.read dry = .ok { line with command := .compile outDir? true })
    (hreal : CommandLine.read real = .ok { line with command := .compile outDir? false })
    (hsame : opening w line race = opening w line race') :
    (∃ outcome : Outcome, run w dry race = outcome ∧ run w real race' = outcome ∧
      outcome.disk = w.disk ∧
      (∀ failure, outcome.ending = .failed failure → failure.isDelivery = false) ∧
      (line.showConfig = false → ∀ clean, outcome.ending ≠ .done clean)) ∨
    ∃ reports, MakesReports w line reports ∧
      (∀ c, outDir?.map (distinct · reports) ≠ some (.error c)) ∧
      run w dry race = compileAll w { line with command := .compile outDir? true } outDir? true
        reports ∧
      run w real race' = compileAll w { line with command := .compile outDir? false } outDir? false
        reports := by
  have hopening : ∀ command race, opening w { line with command } race = opening w line race :=
    fun _ _ => rfl
  rw [run_eq hdry (by simp), run_eq hreal (by simp), hopening (.compile outDir? true),
    hopening (.compile outDir? false), ← hsame]
  obtain ⟨failure, hdelivery, h⟩ | ⟨hshow, -, output, h⟩ | ⟨-, found, h, hmakes⟩ :=
    opening_cases w line race
  · rw [h]
    refine .inl ⟨failing ⟨[], w.disk⟩ failure, rfl, rfl, rfl, fun failure' heq => ?_,
      by simp [failing]⟩
    obtain rfl : failure = failure' := by simpa [failing] using heq
    exact hdelivery
  · rw [h]
    refine .inl ⟨{ ending := .done true, output, errors := [], disk := w.disk }, rfl, rfl, rfl,
      by simp, by simp [hshow]⟩
  · rw [h]
    by_cases hapart : ∃ c, outDir?.map (distinct · (line.select found)) = some (.error c)
    · obtain ⟨c, hc⟩ := hapart
      refine .inl ⟨failing ⟨[], w.disk⟩ (.collision c), compileAll_of_collision hc,
        compileAll_of_collision hc, rfl, fun failure heq => ?_, by simp [failing]⟩
      obtain rfl : Failure.collision c = failure := by simpa [failing] using heq
      rfl
    · rw [not_exists] at hapart
      exact .inr ⟨_, hmakes, hapart, rfl, rfl⟩

/-- Where their openings are one, the dry run fails exactly as the real run fails before its first
output; and it tells of each output of a real run that is done. -/
lemma run_dryRun_of_opening {dry real : List Text}
    (hdry : CommandLine.read dry = .ok { line with command := .compile outDir? true })
    (hreal : CommandLine.read real = .ok { line with command := .compile outDir? false })
    (hroot : w.disk.root.Named) (hsame : opening w line race = opening w line race') :
    (run w dry race).disk = w.disk ∧
    (∀ failure, (run w dry race).ending = .failed failure ↔
      (run w real race').ending = .failed failure ∧ failure.isDelivery = false) ∧
    ((∀ failure, (run w real race').ending = .failed failure → failure.isDelivery = false) →
      (run w dry race).exitCode = (run w real race').exitCode ∧
      (line.showConfig = false → ∀ clean, (run w real race').ending = .done clean →
        ∃ reports, MakesReports w line reports ∧
          Foretold w.disk (run w dry race) (run w real race') (deeds outDir? reports))) := by
  obtain ⟨outcome, hdry, hreal, hdisk, hdelivery, hdone⟩ | ⟨reports, hmakes, hapart, hdry, hreal⟩ :=
    run_compile_pair hdry hreal hsame
  · rw [hdry, hreal]
    refine ⟨hdisk, fun failure => ⟨fun h => ⟨h, hdelivery failure h⟩, And.left⟩, fun _ => ?_⟩
    exact ⟨rfl, fun hshow clean h => absurd h (hdone hshow clean)⟩
  -- the dry run comes to the end of its reports
  obtain ⟨errors, hdone⟩ := compileAll_of_done hapart (emitAll_true outDir? ⟨[], w.disk⟩ reports)
  rw [hdry, hreal, hdone]
  refine ⟨rfl, ?_⟩
  rcases hperformed : Deed.performAll ⟨[], w.disk⟩ (deeds outDir? reports) with ⟨so, failure?⟩
  have hemit := (emitAll_false outDir? ⟨[], w.disk⟩ reports).trans hperformed
  cases failure? with
  | some failure =>
      have hdelivery := Deed.isDelivery_of_performAll hperformed
      rw [compileAll_of_failed hapart hemit]
      refine ⟨fun failure' => ⟨by simp, ?_⟩, fun hno => ?_⟩
      · rintro ⟨h, hno⟩
        obtain rfl : failure = failure' := by simpa [failing] using h
        simp [hdelivery] at hno
      · simp [hno failure rfl] at hdelivery
  | none =>
      obtain ⟨errors', hdone'⟩ := compileAll_of_done hapart hemit
      rw [hdone']
      refine ⟨by simp, fun _ => ⟨rfl, fun _ clean _ => ?_⟩⟩
      have hfiles := files_of_performAll (hmakes.hasPlace hroot) hapart hperformed
      refine ⟨reports, hmakes, rfl, hperformed, ?_, hfiles.1, hfiles.2⟩
      rw [Deed.performAll_output hperformed, List.nil_append]

/-- **A dry run foretells the real one**, whatever the races of the two.  It leaves the disk, and it
fails exactly where the real run fails before its first output: with the same failure in the same
race, and in another race with the same failure too, or else each of the two names a file that
cannot be read.  Where the real run does not fail at a file that it creates or writes, both have one
exit code; and where it is done, the dry run has told of each output, in order, whether it is
written and where, or printed.  The files are those of a tree without links. -/
theorem run_dryRun {dry real : List Text} (race race' : Race CompileFault)
    (hdry : CommandLine.read dry = .ok { line with command := .compile outDir? true })
    (hreal : CommandLine.read real = .ok { line with command := .compile outDir? false })
    (hroot : w.disk.root.Named) :
    (run w dry race).disk = w.disk ∧
    (∀ failure, (run w dry race).ending = .failed failure ↔
      (run w real race).ending = .failed failure ∧ failure.isDelivery = false) ∧
    ((∃ failure, (run w dry race).ending = .failed failure) ↔
      ∃ failure, (run w real race').ending = .failed failure ∧ failure.isDelivery = false) ∧
    (∀ failure failure', (run w dry race).ending = .failed failure →
      (run w real race').ending = .failed failure' →
      failure = failure' ∨ NamesUnread w line failure ∧ NamesUnread w line failure') ∧
    ((∀ failure, (run w real race').ending = .failed failure → failure.isDelivery = false) →
      (run w dry race).exitCode = (run w real race').exitCode ∧
      (line.showConfig = false → ∀ clean, (run w real race').ending = .done clean →
        ∃ reports, MakesReports w line reports ∧
          Foretold w.disk (run w dry race) (run w real race') (deeds outDir? reports))) := by
  obtain ⟨hdisk, hfailed, -⟩ :=
    run_dryRun_of_opening hdry hreal hroot (rfl : opening w line race = opening w line race)
  refine ⟨hdisk, hfailed, ?_⟩
  obtain hsame | ⟨failure, failure', hunread, hunread', h, h'⟩ := opening_race w line race race'
  · obtain ⟨-, hfailed', hdone⟩ := run_dryRun_of_opening hdry hreal hroot hsame
    refine ⟨exists_congr hfailed', fun failure failure' h h' => .inl ?_, hdone⟩
    exact Ending.failed.inj (((hfailed' failure).mp h).1.symm.trans h')
  · have hdryRun : run w dry race = failing ⟨[], w.disk⟩ failure :=
      run_of_opening_eq_error hdry (by simp) h
    have hrealRun : run w real race' = failing ⟨[], w.disk⟩ failure' :=
      run_of_opening_eq_error hreal (by simp) h'
    rw [hdryRun, hrealRun]
    refine ⟨⟨fun _ => ⟨failure', rfl, hunread'.not_isDelivery⟩, fun _ => ⟨failure, rfl⟩⟩, ?_, ?_⟩
    · intro _ _ hf hf'
      obtain rfl := Ending.failed.inj hf
      obtain rfl := Ending.failed.inj hf'
      exact .inr ⟨hunread, hunread'⟩
    · exact fun _ => ⟨rfl, fun _ clean hdone => by cases hdone⟩

/-- Three templates, one called `-` and one with an end marker too many: the dry run tells that the
first is printed and the second written, and says nothing of the third. -/
theorem run_dryRun_dash :
    let w : World :=
      ⟨⟨.directory [("-", .file (.text "x")), ("a", .file (.text "y")),
        ("b", .file (.text "@endallows"))], []⟩, "/u", .text [], false⟩
    let line : CommandLine :=
      ⟨.check, ["./-", "a", "b"].map String.toList, none, .human, none, none, [], false, false,
        false⟩
    let dry : List Text := ["compile", "--out-dir", "out", "--dry-run", "./-", "a", "b"]
    let real : List Text := ["compile", "--out-dir", "out", "./-", "a", "b"]
    CommandLine.read dry = .ok { line with command := .compile (some "out".toList) true } ∧
    CommandLine.read real = .ok { line with command := .compile (some "out".toList) false } ∧
    w.disk.root.Named ∧ (run w real).ending = .done false ∧
    (run w dry).output = "Would print ./-\nWould write out/a\n".toList ∧
    (run w real).output = "x".toList ∧ (run w real).disk.read "out/a" = .ok "y".toList ∧
    (run w dry).disk = w.disk ∧ (run w dry).exitCode = (run w real).exitCode ∧
    ∃ reports, MakesReports w line reports ∧
      Foretold w.disk (run w dry) (run w real) (deeds (some "out".toList) reports) := by
  intro w line dry real
  have hdry : CommandLine.read dry =
      .ok { line with command := .compile (some "out".toList) true } := by decide +kernel
  have hreal : CommandLine.read real =
      .ok { line with command := .compile (some "out".toList) false } := by decide +kernel
  have hroot : w.disk.root.Named := by
    refine .directory ?_
    simp only [List.forall_mem_cons]
    exact ⟨⟨by decide, .file _⟩, ⟨by decide, .file _⟩, ⟨by decide, .file _⟩, by simp⟩
  have hdone : (run w real).ending = .done false := by decide +kernel
  obtain ⟨hdisk, -, -, -, hforetold⟩ := run_dryRun .inOrder .inOrder hdry hreal hroot
  obtain ⟨hcode, hreports⟩ := hforetold fun failure h => by
    rw [hdone] at h
    cases h
  exact ⟨hdry, hreal, hroot, hdone, by decide +kernel, by decide +kernel, by decide +kernel, hdisk,
    hcode, hreports rfl false hdone⟩

/-- Of two files that cannot be read, with a template between them, the dry run names the first and
the real run the other one: the failures of the two runs need not be the same. -/
theorem run_dryRun_not_same :
    let w : World :=
      ⟨⟨.directory [("a", .file .binary), ("b", .file (.text "x")), ("c", .file .binary)], []⟩,
        "/u", .text [], false⟩
    let dry : List Text := ["compile", "--dry-run", "a", "b", "c"]
    let real : List Text := ["compile", "a", "b", "c"]
    let race : Race CompileFault := .favouring (.unreadable "c" .notText)
    (run w dry).ending = .failed (.compiling (.unreadable "a" .notText)) ∧
    (run w real race).ending = .failed (.compiling (.unreadable "c" .notText)) ∧
    ¬ ∀ failure, (run w dry).ending = .failed failure ↔
      (run w real race).ending = .failed failure ∧ failure.isDelivery = false := by
  intro w dry real race
  have hdry : (run w dry).ending = .failed (.compiling (.unreadable "a" .notText)) := by
    decide +kernel
  have hreal : (run w real race).ending = .failed (.compiling (.unreadable "c" .notText)) := by
    decide +kernel
  refine ⟨hdry, hreal, fun hsame => ?_⟩
  have hboth := ((hsame _).mp hdry).1
  rw [hreal] at hboth
  exact absurd hboth (by decide)

end TemplateGuards
