import TemplateGuards.Diagnostic
import TemplateGuards.Extension

/-!
Reports: what the compilation of one template came to, and the counts over a list of them.

* `Report.ofContent`: a text compiled by a chain of extensions;
* `Report.keepErrors`: a report without its warnings;
* `Summary.ofReports`: the counts over a list of reports.
-/

namespace TemplateGuards

/-- What the compilation of one template came to. -/
structure Report where
  /-- The path under which the template was read. -/
  path : Text
  /-- The path that the compiled template has below an output directory. -/
  relativePath : Text
  /-- The compiled template, if there is one. -/
  output? : Option Text
  /-- Is the compiled template another text than the template? -/
  changed : Bool
  /-- What is to be said of the template, in order. -/
  diagnostics : List Diagnostic
deriving DecidableEq, Repr

namespace Report

/-- Is one of the diagnostics an error? -/
def hasErrors (r : Report) : Bool := r.diagnostics.any Diagnostic.isError

/-- The report on a text that a chain of extensions compiles. -/
def ofContent (chain : List Extension) (path content : Text) : Report :=
  match Extension.runAll chain content with
  | .ok compiled =>
    { path
      relativePath := path
      output? := some compiled.text
      changed := compiled.text != content
      diagnostics := Diagnostic.sort (compiled.warnings.map Diagnostic.ofNested) }
  | .error e =>
    { path
      relativePath := path
      output? := none
      changed := false
      diagnostics := [Diagnostic.ofFault e.fault] }

/-- The report without its warnings. -/
def keepErrors (r : Report) : Report :=
  { r with diagnostics := r.diagnostics.filter Diagnostic.isError }

end Report

/-! ### Counts -/

/-- The counts over a list of reports. -/
structure Summary where
  totalFiles : Nat
  filesChanged : Nat
  filesWithProblems : Nat
  totalProblems : Nat
  errors : Nat
  warnings : Nat
deriving DecidableEq, Repr

namespace Summary

/-- The counts over a list of reports. -/
def ofReports (reports : List Report) : Summary :=
  let diagnostics := reports.flatMap (·.diagnostics)
  { totalFiles := reports.length
    filesChanged := reports.countP (·.changed)
    filesWithProblems := reports.countP fun r => !r.diagnostics.isEmpty
    totalProblems := diagnostics.length
    errors := diagnostics.countP (·.level == .error)
    warnings := diagnostics.countP (·.level == .warning) }

/-- Is there an error? -/
def hasErrors (s : Summary) : Bool := 0 < s.errors

/-- Is there anything to report? -/
def hasProblems (s : Summary) : Bool := 0 < s.totalProblems

end Summary

end TemplateGuards
