import TemplateGuards.Proofs.Opening

/-!
Compiling into an output directory.  Each output is written at the relative path of its report, no
other file is touched, and nothing is printed but the outputs of reports that carry the name of the
standard input.

* `printed`: what reports print;
* `Emitted`: what has become of a list of reports;
* `emitted_of_emitAll`: a whole list of reports, one delivery after the other;
* `compileAll_cases`: what a compilation comes to;
* `run_compile_outDir`: the files and the output of a run.
-/

namespace TemplateGuards

open TemplateGuards.Path Disk

variable {outDir : Text} {so so' : Delivery} {r : Report} {names : List Text}

namespace Report

/-- Reports at one place have one relative path. -/
lemma HasPlace.destination_congr {r' : Report} (h : r.HasPlace names) (h' : r'.HasPlace names) :
    r.destination outDir = r'.destination outDir := by
  rw [h.destination_eq, h'.destination_eq]

lemma HasPlace.unique {names' : List Text} (h : r.HasPlace names) (h' : r.HasPlace names') :
    names' = names := by
  have hsegments : ∀ {ns}, r.HasPlace ns → segments r.relativePath = ns := fun hns => by
    rw [hns.relativePath]
    exact segments_ofNames hns.isPlace.ne_nil fun n hn =>
      (hns.isPlace.isName n hn).separator_not_mem
  rw [← hsegments h, hsegments h']

/-- The report's output is written, not printed. -/
structure Writes (r : Report) (output : Text) : Prop where
  output : r.output? = some output
  not_input : r.relativePath ≠ inputName

lemma Writes.isInput {output : Text} (h : r.Writes output) : r.isInput = false := by
  simpa [Report.isInput] using h.not_input

lemma Writes.mem_written {output : Text} {reports : List Report} (h : r.Writes output)
    (hr : r ∈ reports) : r ∈ written reports :=
  List.mem_filter.mpr ⟨hr, by simp [h.isInput]⟩

end Report

/-- What reports print: the outputs of those that carry the name of the standard input. -/
def printed (reports : List Report) : Text :=
  (reports.filter fun r => r.relativePath == inputName).flatMap fun r => r.output?.getD []

lemma printed_append (reports more : List Report) :
    printed (reports ++ more) = printed reports ++ printed more := by
  simp [printed]

/-! ### One report -/

/-- A report that is not written is at most printed. -/
lemma emitAll_cons_of_not_writes {rest : List Report} (h : ∀ output, ¬ r.Writes output) :
    emitAll (some outDir) false so (r :: rest) =
      emitAll (some outDir) false { so with output := so.output ++ printed [r] } rest := by
  rw [emitAll]
  cases hout : r.output? with
  | none =>
      have hprinted : printed [r] = [] := by
        by_cases hinput : r.relativePath = inputName <;> simp [printed, hinput, hout]
      simp [hprinted]
  | some output =>
      have hinput : r.relativePath = inputName := by
        by_contra hinput
        exact h output ⟨hout, hinput⟩
      simp [emit, emit.print, Report.isInput, printed, hinput, hout]

lemma emitAll_cons_of_writes {rest : List Report} {output : Text} (h : r.Writes output) :
    emitAll (some outDir) false so (r :: rest) =
      match deliver so.disk (r.destination outDir) output with
      | (disk, none) => emitAll (some outDir) false { so with disk } rest
      | (disk, some failure) => ({ so with disk }, some failure) := by
  rw [emitAll, h.output]
  simp only [emit, h.isInput, Bool.false_eq_true, if_false]
  rcases deliver so.disk (r.destination outDir) output with ⟨disk, failure?⟩
  cases failure? <;> rfl

/-! ### All reports -/

/-- What has become of reports whose outputs have been written or printed. -/
structure Emitted (outDir : Text) (reports : List Report) (so so' : Delivery) : Prop where
  growsTo : GrowsTo so.disk so'.disk
  /-- Each output stands in its file. -/
  file : ∀ r ∈ reports, ∀ output names, r.Writes output → r.HasPlace names →
    so'.disk.entryAt? (so.disk.spot outDir ++ names) = some (.file (.text output))
  locate : ∀ r ∈ reports, ∀ output names, r.Writes output → r.HasPlace names →
    so'.disk.locate (r.destination outDir) = .ok (so.disk.spot outDir ++ names)
  /-- No other file is created or changed. -/
  frame : ∀ place content,
    (∀ r ∈ reports, ∀ output names, r.Writes output → r.HasPlace names →
      place ≠ so.disk.spot outDir ++ names) →
    (so'.disk.entryAt? place = some (.file content) ↔
      so.disk.entryAt? place = some (.file content))
  output : so'.output = so.output ++ printed reports

/-- A report that is not written changes no file. -/
lemma Emitted.cons_of_not_writes {reports : List Report}
    (hr : ∀ output, ¬ r.Writes output)
    (h : Emitted outDir reports { so with output := so.output ++ printed [r] } so') :
    Emitted outDir (r :: reports) so so' where
  growsTo := h.growsTo
  file e he output names hw := by
    rcases List.mem_cons.mp he with rfl | he
    · exact absurd hw (hr output)
    · exact h.file e he output names hw
  locate e he output names hw := by
    rcases List.mem_cons.mp he with rfl | he
    · exact absurd hw (hr output)
    · exact h.locate e he output names hw
  frame place content hplace := h.frame place content fun e he => hplace e (by simp [he])
  output := by
    rw [h.output, List.append_assoc, ← printed_append, List.singleton_append]

/-- A written report ahead of reports that are not written to its file. -/
lemma Emitted.cons_of_writes {reports : List Report} {output : Text} {disk : Disk}
    (hw : r.Writes output) (hr : r.HasPlace names)
    (hdelivered : Delivered so.disk outDir names output disk)
    (hother : ∀ e ∈ written reports, r.destination outDir ≠ e.destination outDir)
    (h : Emitted outDir reports { so with disk } so') : Emitted outDir (r :: reports) so so' := by
  have hspot : disk.spot outDir = so.disk.spot outDir := hdelivered.growsTo.spot outDir
  have hfile := h.file
  have hlocate := h.locate
  have hframe := h.frame
  simp only [hspot] at hfile hlocate hframe
  -- the other reports are written elsewhere
  have hne : ∀ e ∈ reports, ∀ output' names', e.Writes output' → e.HasPlace names' →
      so.disk.spot outDir ++ names ≠ so.disk.spot outDir ++ names' := by
    intro e he output' names' hw' he' heq
    obtain rfl := List.append_cancel_left heq
    exact hother e (hw'.mem_written he) (hr.destination_congr he')
  refine ⟨hdelivered.growsTo.trans h.growsTo, ?_, ?_, ?_, ?_⟩
  · intro e he output' names' hw' he'
    rcases List.mem_cons.mp he with rfl | he
    · obtain rfl := hr.unique he'
      obtain rfl : output' = output := by simpa [hw.output, eq_comm] using hw'.output
      rw [hframe _ _ fun e he output' names' hw' he' => hne e he output' names' hw' he']
      exact hdelivered.file
    · exact hfile e he output' names' hw' he'
  · intro e he output' names' hw' he'
    rcases List.mem_cons.mp he with rfl | he
    · obtain rfl := hr.unique he'
      have hthere := locate_eq_ok_iff.mp hdelivered.locate
      rw [he'.destination_eq]
      refine locate_eq_ok_iff.mpr ⟨hthere.1, ?_⟩
      rw [h.growsTo.startOf]
      exact h.growsTo.follow hthere.2
    · exact hlocate e he output' names' hw' he'
  · intro place content hplace
    rw [hframe place content fun e he => hplace e (by simp [he])]
    exact hdelivered.frame place content (hplace r (by simp) output names hw hr)
  · rw [h.output]
    simp [printed, hw.not_input]

/-- **All reports**: where none is refused, each output is written or printed. -/
lemma emitted_of_emitAll {reports : List Report}
    (hplaces : ∀ r ∈ reports, ∃ names, r.HasPlace names)
    (hdistinct : (written reports).Pairwise fun a b =>
      components (a.destination outDir) ≠ components (b.destination outDir))
    (h : emitAll (some outDir) false so reports = (so', none)) :
    Emitted outDir reports so so' := by
  induction reports generalizing so with
  | nil =>
      obtain rfl : so = so' := by simpa [emitAll] using h
      exact ⟨.refl _, by simp, by simp, by simp, by simp [printed]⟩
  | cons r rest ih =>
      have hrest : ∀ e ∈ rest, ∃ names, e.HasPlace names := fun e he => hplaces e (by simp [he])
      have hpairs : (written rest).Pairwise fun a b =>
          components (a.destination outDir) ≠ components (b.destination outDir) :=
        hdistinct.sublist ((List.sublist_cons_self r rest).filter _)
      by_cases hwrites : ∃ output, r.Writes output
      · obtain ⟨output, hw⟩ := hwrites
        obtain ⟨names, hr⟩ := hplaces r (by simp)
        rw [emitAll_cons_of_writes hw, hr.destination_eq] at h
        rcases hd : deliver so.disk (Disk.destination outDir names) output with ⟨disk, failure?⟩
        rw [hd] at h
        cases failure? with
        | some failure => simp at h
        | none =>
            have hwritten : written (r :: rest) = r :: written rest := by simp [written, hw.isInput]
            rw [hwritten, List.pairwise_cons] at hdistinct
            refine Emitted.cons_of_writes hw hr (delivered_of_deliver hr.isPlace hd) ?_
              (ih hrest hpairs h)
            exact fun e he heq => hdistinct.1 e he (by rw [heq])
      · rw [not_exists] at hwrites
        rw [emitAll_cons_of_not_writes hwrites] at h
        exact (ih hrest hpairs h).cons_of_not_writes hwrites

/-- A written output is read at its destination. -/
lemma Emitted.read {reports : List Report} {output : Text} (h : Emitted outDir reports so so')
    (hr : r ∈ reports) (hplace : ∃ names, r.HasPlace names) (hw : r.Writes output) :
    so'.disk.read (r.destination outDir) = .ok output := by
  obtain ⟨names, hnames⟩ := hplace
  rw [Disk.read, h.locate r hr output names hw hnames]
  exact readAt_eq_ok_iff.mpr (h.file r hr output names hw hnames)

/-- A file that is no destination is neither created nor changed. -/
lemma Emitted.unchanged {reports : List Report} {place : List Text}
    (h : Emitted outDir reports so so')
    (hplace : ∀ r ∈ reports, ∀ output, r.Writes output →
      so'.disk.locate (r.destination outDir) ≠ .ok place) (content : Content) :
    so'.disk.entryAt? place = some (.file content) ↔
      so.disk.entryAt? place = some (.file content) := by
  refine h.frame place content fun r hr output names hw hnames heq => ?_
  refine hplace r hr output hw ?_
  rw [heq]
  exact h.locate r hr output names hw hnames

/-! ### Runs -/

/-- A compilation fails before the first report when two of them have one destination; else it
comes to what the reports come to. -/
lemma compileAll_cases (w : World) (line : CommandLine) (outDir : Text) (dryRun : Bool)
    (reports : List Report) :
    (∃ c, compileAll w line (some outDir) dryRun reports = failing ⟨[], w.disk⟩ (.collision c)) ∨
    distinct outDir reports = .ok () ∧ ∃ so,
      (∃ failure, emitAll (some outDir) dryRun ⟨[], w.disk⟩ reports = (so, some failure) ∧
        compileAll w line (some outDir) dryRun reports = failing so failure) ∨
      (emitAll (some outDir) dryRun ⟨[], w.disk⟩ reports = (so, none) ∧
        ∃ clean errors, compileAll w line (some outDir) dryRun reports =
          { ending := .done clean, output := so.output, errors, disk := so.disk }) := by
  cases hdistinct : distinct outDir reports with
  | error c => exact .inl ⟨c, compileAll_of_collision (by simp [hdistinct])⟩
  | ok _ =>
      have hapart : ∀ c, (some outDir).map (distinct · reports) ≠ some (.error c) := by
        simp [hdistinct]
      refine .inr ⟨rfl, ?_⟩
      rcases hemit : emitAll (some outDir) dryRun ⟨[], w.disk⟩ reports with ⟨so, failure?⟩
      cases failure? with
      | some failure => exact ⟨so, .inl ⟨failure, rfl, compileAll_of_failed hapart hemit⟩⟩
      | none =>
          obtain ⟨errors, h⟩ := @compileAll_of_done w line _ _ _ _ hapart hemit
          exact ⟨so, .inr ⟨rfl, _, errors, h⟩⟩

/-- **Compiling into an output directory.**  Where the run is not ended by a failure, the outputs
stand in the files of their reports, no other file has been created or changed, and what is printed
are the outputs of the reports whose relative path is the name of the standard input.  The files are
those of a tree without links, in which no two places hold one file. -/
theorem run_compile_outDir {w : World} {words : List Text} {line : CommandLine} {outDir : Text}
    {race : Race CompileFault} {clean : Bool} (hread : CommandLine.read words = .ok line)
    (hcommand : line.command = .compile (some outDir) false) (hroot : w.disk.root.Named)
    (hdone : (run w words race).ending = .done clean) :
    ∃ reports, MakesReports w line reports ∧
      (∀ r ∈ reports, ∀ output, r.output? = some output → r.relativePath ≠ inputName →
        (run w words race).disk.read (r.destination outDir) = .ok output) ∧
      (∀ place, (∀ r ∈ reports, r.output?.isSome → r.relativePath ≠ inputName →
          (run w words race).disk.locate (r.destination outDir) ≠ .ok place) →
        ∀ content, (run w words race).disk.entryAt? place = some (.file content) ↔
          w.disk.entryAt? place = some (.file content)) ∧
      (line.showConfig = false → (run w words race).output = printed reports) := by
  obtain ⟨failure, hrun⟩ | ⟨hshow, hmakes, output, hrun⟩ | ⟨reports, hmakes, hrun⟩ :=
    run_compile_cases hread hcommand
  · rw [hrun] at hdone
    simp [failing] at hdone
  · rw [hrun]
    exact ⟨[], hmakes, by simp, fun _ _ _ => Iff.rfl, by simp [hshow]⟩
  obtain ⟨c, hc⟩ | ⟨hdistinct, so, ⟨failure, -, hc⟩ | ⟨hemit, _, _, hc⟩⟩ :=
    compileAll_cases w line outDir false reports
  · rw [hrun, hc] at hdone
    simp [failing] at hdone
  · rw [hrun, hc] at hdone
    simp [failing] at hdone
  have hplaces := hmakes.hasPlace hroot
  have hall := emitted_of_emitAll hplaces (distinct_eq_ok_iff.mp hdistinct) hemit
  rw [hrun, hc]
  refine ⟨reports, hmakes, ?_, ?_, ?_⟩
  · intro r hr output hout hinput
    obtain ⟨names, hnames⟩ := hplaces r hr
    have hw : r.Writes output := ⟨hout, hinput⟩
    rw [Disk.read, hall.locate r hr output names hw hnames]
    exact readAt_eq_ok_iff.mpr (hall.file r hr output names hw hnames)
  · intro place hplace content
    refine hall.frame place content fun r hr output names hw hnames heq => ?_
    refine hplace r hr (by simp [hw.output]) hw.not_input ?_
    rw [heq]
    exact hall.locate r hr output names hw hnames
  · intro _
    simpa using hall.output

/-- Two templates, one of which is called `-`: that one is printed and not written. -/
theorem run_compile_outDir_dash :
    let w : World :=
      ⟨⟨.directory [("-", .file (.text "x")), ("a", .file (.text "y"))], []⟩, "/u", .text [], false⟩
    let words : List Text := ["compile", "--out-dir", "out", "./-", "a"]
    (run w words).output = "x".toList ∧ (run w words).disk.read "out/-" = .error .notFound ∧
    ∃ line, CommandLine.read words = .ok line ∧
      line.command = .compile (some "out".toList) false ∧ w.disk.root.Named ∧
      (run w words).ending = .done true ∧
      ∃ reports, MakesReports w line reports ∧
        (∀ r ∈ reports, ∀ output, r.output? = some output → r.relativePath ≠ inputName →
          (run w words).disk.read (r.destination "out") = .ok output) ∧
        (∀ place, (∀ r ∈ reports, r.output?.isSome → r.relativePath ≠ inputName →
            (run w words).disk.locate (r.destination "out") ≠ .ok place) →
          ∀ content, (run w words).disk.entryAt? place = some (.file content) ↔
            w.disk.entryAt? place = some (.file content)) ∧
        (line.showConfig = false → (run w words).output = printed reports) := by
  intro w words
  let line : CommandLine :=
    ⟨.compile (some "out".toList) false, ["./-", "a"].map String.toList, none, .human, none, none,
      [], false, false, false⟩
  have hread : CommandLine.read words = .ok line := by decide +kernel
  have hroot : w.disk.root.Named := by
    refine .directory ?_
    simp only [List.forall_mem_cons]
    exact ⟨⟨by decide, .file _⟩, ⟨by decide, .file _⟩, by simp⟩
  have hdone : (run w words).ending = .done true := by decide +kernel
  exact ⟨by decide +kernel, by decide +kernel, line, hread, rfl, hroot, hdone,
    run_compile_outDir hread rfl hroot hdone⟩

end TemplateGuards
