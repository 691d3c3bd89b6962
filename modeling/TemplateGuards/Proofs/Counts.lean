import Mathlib.Algebra.BigOperators.Group.List.Basic
import TemplateGuards.Proofs.ExitCode

/-!
The counts over a list of reports are the sum of the counts of its reports, so that they do not
depend on the order of the reports, nor on that of the diagnostics in a report.  What the counts say
of errors and of problems is what the reports say, with and without their warnings.

* `Summary.ofReport`: the counts of one report; `Summary.ofReports_eq_sum`: their sum;
* `Reordered`: the same reports and diagnostics in another order;
* `Summary.Consistent`: how the counts fit together, which sums keep
  (`Summary.consistent_ofReports`);
* `Summary.ofReports_keepErrors`: the counts without the warnings;
* `Summary.ofReports_counts`: **the counts over reports**.
-/

namespace TemplateGuards

attribute [ext] Summary

/-- The same reports in another order, their diagnostics in another order too. -/
def Reordered (reports others : List Report) : Prop :=
  ∃ between, List.Forall₂ (fun r r' => ∃ ds, ds.Perm r.diagnostics ∧
    r' = { r with diagnostics := ds }) reports between ∧ between.Perm others

namespace Summary

variable {a b reports others : List Report} {r : Report}

/-! ### Sums of counts -/

instance : Zero Summary := ⟨⟨0, 0, 0, 0, 0, 0⟩⟩

/-- Counts are added one by one. -/
instance : Add Summary where
  add s t :=
    { totalFiles := s.totalFiles + t.totalFiles
      filesChanged := s.filesChanged + t.filesChanged
      filesWithProblems := s.filesWithProblems + t.filesWithProblems
      totalProblems := s.totalProblems + t.totalProblems
      errors := s.errors + t.errors
      warnings := s.warnings + t.warnings }

instance : AddCommMonoid Summary where
  add_assoc s t u := by ext <;> exact Nat.add_assoc _ _ _
  zero_add s := by ext <;> exact Nat.zero_add _
  add_zero s := by ext <;> exact Nat.add_zero _
  add_comm s t := by ext <;> exact Nat.add_comm _ _
  nsmul := nsmulRec

/-- The counts of one report. -/
def ofReport (r : Report) : Summary where
  totalFiles := 1
  filesChanged := r.changed.toNat
  filesWithProblems := (!r.diagnostics.isEmpty).toNat
  totalProblems := r.diagnostics.length
  errors := r.diagnostics.countP (·.level == .error)
  warnings := r.diagnostics.countP (·.level == .warning)

lemma countP_cons_eq (p : Report → Bool) (r : Report) (reports : List Report) :
    (r :: reports).countP p = (p r).toNat + reports.countP p := by
  rw [List.countP_cons, Nat.add_comm]
  cases p r <;> rfl

/-- One more report adds its counts. -/
lemma ofReports_cons (r : Report) (reports : List Report) :
    ofReports (r :: reports) = ofReport r + ofReports reports := by
  ext
  · exact Nat.add_comm reports.length 1
  · exact countP_cons_eq (·.changed) r reports
  · exact countP_cons_eq (!·.diagnostics.isEmpty) r reports
  · exact List.length_append
  · exact List.countP_append
  · exact List.countP_append

/-- **The counts over reports** are the sum of the counts of each. -/
lemma ofReports_eq_sum (reports : List Report) :
    ofReports reports = (reports.map ofReport).sum := by
  induction reports with
  | nil => rfl
  | cons r reports ih => rw [ofReports_cons, ih, List.map_cons, List.sum_cons]

lemma ofReports_append (a b : List Report) : ofReports (a ++ b) = ofReports a + ofReports b := by
  simp only [ofReports_eq_sum, List.map_append, List.sum_append]

/-! ### Order -/

/-- The order of its diagnostics does not change the counts of a report. -/
lemma ofReport_of_perm {ds : List Diagnostic} (h : ds.Perm r.diagnostics) :
    ofReport { r with diagnostics := ds } = ofReport r := by
  ext
  · rfl
  · rfl
  · exact congrArg (fun empty => (!empty).toNat) h.isEmpty_eq
  · exact h.length_eq
  · exact h.countP_eq _
  · exact h.countP_eq _

/-- **The counts do not depend on the order** of reports and diagnostics. -/
lemma ofReports_of_reordered (h : Reordered reports others) :
    ofReports others = ofReports reports := by
  obtain ⟨between, hsame, hperm⟩ := h
  have hmap : reports.map ofReport = between.map ofReport := by
    clear hperm
    induction hsame with
    | nil => rfl
    | cons hr _ ih =>
        obtain ⟨ds, hds, rfl⟩ := hr
        rw [List.map_cons, List.map_cons, ofReport_of_perm hds, ih]
  rw [ofReports_eq_sum, ofReports_eq_sum, hmap]
  exact ((hperm.map ofReport).sum_eq).symm

/-! ### How counts fit together -/

/-- Each problem is an error or a warning, and a file with problems is a file and has one. -/
structure Consistent (s : Summary) : Prop where
  problems : s.errors + s.warnings = s.totalProblems
  filesWithProblems_le_files : s.filesWithProblems ≤ s.totalFiles
  filesWithProblems_le_problems : s.filesWithProblems ≤ s.totalProblems

lemma consistent_zero : Consistent 0 := ⟨rfl, Nat.le_refl _, Nat.le_refl _⟩

/-- Sums of counts fit together as their parts do. -/
lemma Consistent.add {s t : Summary} (hs : s.Consistent) (ht : t.Consistent) :
    (s + t).Consistent := by
  obtain ⟨hs1, hs2, hs3⟩ := hs
  obtain ⟨ht1, ht2, ht3⟩ := ht
  refine ⟨?_, Nat.add_le_add hs2 ht2, Nat.add_le_add hs3 ht3⟩
  calc (s + t).errors + (s + t).warnings
      = (s.errors + s.warnings) + (t.errors + t.warnings) := Nat.add_add_add_comm _ _ _ _
    _ = (s + t).totalProblems := congrArg₂ (· + ·) hs1 ht1

/-- A diagnostic is an error or a warning. -/
lemma errors_add_warnings (ds : List Diagnostic) :
    ds.countP (·.level == .error) + ds.countP (·.level == .warning) = ds.length := by
  induction ds with
  | nil => rfl
  | cons d ds ih =>
      rw [List.countP_cons, List.countP_cons, List.length_cons, ← ih]
      cases d.level with
      | error => exact Nat.add_right_comm _ 1 _
      | warning => exact (Nat.add_assoc _ _ 1).symm

lemma consistent_ofReport (r : Report) : (ofReport r).Consistent where
  problems := errors_add_warnings r.diagnostics
  filesWithProblems_le_files := Bool.toNat_le _
  filesWithProblems_le_problems := by
    simp only [ofReport]
    cases r.diagnostics <;> simp

/-- **The counts over reports fit together.** -/
lemma consistent_ofReports (reports : List Report) : (ofReports reports).Consistent := by
  induction reports with
  | nil => exact consistent_zero
  | cons r reports ih =>
      rw [ofReports_cons]
      exact (consistent_ofReport r).add ih

/-! ### Errors and problems -/

lemma hasErrors_ofReports_iff :
    (ofReports reports).hasErrors = true ↔ ∃ r ∈ reports, r.hasErrors = true := by
  rw [hasErrors_ofReports, List.any_eq_true]

lemma hasProblems_ofReports_iff :
    (ofReports reports).hasProblems = true ↔ ∃ r ∈ reports, r.diagnostics ≠ [] := by
  rw [hasProblems, decide_eq_true_iff]
  simp only [ofReports, List.length_pos_iff, ne_eq, List.flatMap_eq_nil_iff, not_forall,
    exists_prop]

/-- The counts of a report without its warnings. -/
lemma ofReport_keepErrors (r : Report) :
    ofReport r.keepErrors =
      { ofReport r with
        filesWithProblems := r.hasErrors.toNat
        totalProblems := (ofReport r).errors
        warnings := 0 } := by
  ext
  · rfl
  · rfl
  · have hempty : (r.diagnostics.filter Diagnostic.isError).isEmpty = !r.hasErrors := by
      rw [Report.hasErrors, Bool.eq_iff_iff, List.isEmpty_iff, List.filter_eq_nil_iff,
        Bool.not_eq_true', List.any_eq_false]
    simp only [ofReport, Report.keepErrors, hempty, Bool.not_not]
  · exact List.countP_eq_length_filter.symm
  · simp only [ofReport, Report.keepErrors, List.countP_filter, Diagnostic.isError, Bool.and_self]
  · refine List.countP_eq_zero.mpr fun d hd => ?_
    have herror : d.level = .error := by simpa [Diagnostic.isError] using (List.mem_filter.mp hd).2
    simp [herror]

/-- **Without the warnings** the files, the changed ones and the errors stay, and the problems are
the errors. -/
lemma ofReports_keepErrors (reports : List Report) :
    ofReports (reports.map .keepErrors) =
      { ofReports reports with
        filesWithProblems := reports.countP Report.hasErrors
        totalProblems := (ofReports reports).errors
        warnings := 0 } := by
  induction reports with
  | nil => rfl
  | cons r reports ih =>
      rw [List.map_cons, ofReports_cons, ofReports_cons, ih, ofReport_keepErrors, countP_cons_eq]
      rfl

/-- **The counts over reports.**  Those of two lists together are the sums, count by count, and no
order matters.  Errors and warnings make up the problems, and there are no more files with problems
than files or problems.  There are errors if and only if a report has one, and problems if and only
if a report has a diagnostic.  Leaving out the warnings keeps the files, the changed files and the
errors, and leaves no warning. -/
theorem ofReports_counts (a b : List Report) :
    ofReports (a ++ b) = ofReports a + ofReports b ∧
    (∀ others, Reordered a others → ofReports others = ofReports a) ∧
    (ofReports a).errors + (ofReports a).warnings = (ofReports a).totalProblems ∧
    (ofReports a).filesWithProblems ≤ (ofReports a).totalFiles ∧
    (ofReports a).filesWithProblems ≤ (ofReports a).totalProblems ∧
    ((ofReports a).hasErrors = true ↔ ∃ r ∈ a, r.hasErrors = true) ∧
    ((ofReports a).hasProblems = true ↔ ∃ r ∈ a, r.diagnostics ≠ []) ∧
    ∀ line : CommandLine, line.errorsOnly = true →
      (ofReports (line.select a)).totalFiles = (ofReports a).totalFiles ∧
      (ofReports (line.select a)).filesChanged = (ofReports a).filesChanged ∧
      (ofReports (line.select a)).errors = (ofReports a).errors ∧
      (ofReports (line.select a)).warnings = 0 := by
  obtain ⟨hproblems, hfiles, hfew⟩ := consistent_ofReports a
  refine ⟨ofReports_append a b, fun others => ofReports_of_reordered, hproblems, hfiles, hfew,
    hasErrors_ofReports_iff, hasProblems_ofReports_iff, fun line hline => ?_⟩
  rw [CommandLine.select, if_pos hline, ofReports_keepErrors]
  exact ⟨rfl, rfl, rfl, rfl⟩

/-- A template with an error and one with two warnings, in another order with the warnings in
another order, and without the warnings. -/
theorem ofReports_counts_mixed :
    let error : Diagnostic := ⟨⟨1, 1⟩, .error, "unexpected-end", "e", none⟩
    let first : Diagnostic := ⟨⟨1, 2⟩, .warning, "nested-directive", "w", none⟩
    let later : Diagnostic := ⟨⟨3, 4⟩, .warning, "nested-directive", "w", none⟩
    let failed : Report := ⟨"a", "a", none, false, [error]⟩
    let compiled : Report := ⟨"b", "b", some "x", true, [first, later]⟩
    let others := [{ compiled with diagnostics := [later, first] }, failed]
    let line : CommandLine :=
      ⟨.check, [], none, .human, none, none, [], true, false, false⟩
    Reordered [failed, compiled] others ∧ ofReports others = ⟨2, 1, 2, 3, 1, 2⟩ ∧
    line.errorsOnly = true ∧ (ofReports (line.select [failed, compiled])).errors = 1 ∧
    (ofReports (line.select [failed, compiled])).warnings = 0 := by
  intro error first later failed compiled others line
  have hreordered : Reordered [failed, compiled] others :=
    ⟨[failed, { compiled with diagnostics := [later, first] }],
      .cons ⟨[error], .refl _, rfl⟩ (.cons ⟨[later, first], .swap _ _ _, rfl⟩ .nil), .swap _ _ _⟩
  obtain ⟨-, horder, -, -, -, -, -, hfilter⟩ := ofReports_counts [failed, compiled] []
  obtain ⟨-, -, herrors, hwarnings⟩ := hfilter line rfl
  exact ⟨hreordered, horder others hreordered, rfl, herrors, hwarnings⟩

end Summary

end TemplateGuards
