import Mathlib.Logic.Function.Basic
import TemplateGuards.Proofs.JsonReading
import TemplateGuards.Report.Format

/-!
The report for programs read back.  A program takes from the text one JSON value, and from that
value the counts and, file by file, what there is to know of its report: the path, whether there is
output, whether it changed, and the diagnostics in full.  Members are found by their names.

* `Machine.Brief`, `Machine.Contents`: what a program learns of a report, and of all of them;
* `Json.field?`, `Json.toOptional?`, `Json.toList?`: the parts of a value;
* `Machine.toDiagnostic?`, `Machine.toBrief?`, `Machine.toContents?`: the contents of a value;
* `Machine.toContents?_ofReports`: the value of the reports holds their contents;
* `Machine.contents_render`: **the text for programs holds the contents, and nothing else**.
-/

namespace TemplateGuards

/-! ### The parts of a value -/

namespace Json

variable {α : Type}

def toBool? : Json → Option Bool
  | bool b => some b
  | _ => none

def toNumber? : Json → Option Nat
  | number n => some n
  | _ => none

def toText? : Json → Option Text
  | string t => some t
  | _ => none

/-- A part that may be null. -/
def toOptional? (read : Json → Option α) : Json → Option (Option α)
  | null => some none
  | j => (read j).map some

/-- A list of parts. -/
def toList? (read : Json → Option α) : Json → Option (List α)
  | array items => items.mapM read
  | _ => none

/-- The part that is the first member with the name. -/
def field? (name : Text) (read : Json → Option α) : Json → Option α
  | object members => (members.lookup name).bind read
  | _ => none

section Members

variable (read : Json → Option α) (name : Text) (value : Json) (members : List (Text × Json))

lemma field?_head : field? name read (object ((name, value) :: members)) = read value := by
  rw [field?, List.lookup_cons_self, Option.bind_some]

lemma field?_tail {other : Text} (h : name ≠ other) :
    field? name read (object ((other, value) :: members)) = field? name read (object members) := by
  rw [field?, List.lookup_cons, beq_false_of_ne h, field?]

end Members

lemma toOptional?_string (t? : Option Text) :
    toOptional? toText? ((t?.map string).getD null) = some t? := by
  cases t? <;> rfl

/-- Items that are read back one by one are read back as a list. -/
lemma toList?_map {β : Type} {read : Json → Option β} {write : α → Json} {f : α → β}
    (h : ∀ a, read (write a) = some (f a)) (l : List α) :
    toList? read (array (l.map write)) = some (l.map f) := by
  have hread : read ∘ write = fun a => some (f a) := funext h
  rw [toList?, List.mapM_map, hread]
  exact List.mapM_pure

end Json

namespace Machine

/-! ### Contents -/

/-- What a program learns of one report. -/
structure Brief where
  path : Text
  /-- Is there a compiled template? -/
  compiled : Bool
  changed : Bool
  diagnostics : List Diagnostic
deriving DecidableEq, Repr

/-- What a program learns of the reports. -/
structure Contents where
  summary : Summary
  briefs : List Brief
deriving DecidableEq, Repr

def Brief.ofReport (r : Report) : Brief := ⟨r.path, r.output?.isSome, r.changed, r.diagnostics⟩

def Contents.ofReports (reports : List Report) : Contents :=
  ⟨Summary.ofReports reports, reports.map Brief.ofReport⟩

/-! ### The contents of a value -/

/-- The diagnostic that a value stands for. -/
def toDiagnostic? (j : Json) : Option Diagnostic := do
  let line ← j.field? "line" Json.toNumber?
  let column ← j.field? "column" Json.toNumber?
  let level ← j.field? "level" fun name => name.toText?.bind Named.read?
  let code ← j.field? "code" Json.toText?
  let message ← j.field? "message" Json.toText?
  let suggestion? ← j.field? "suggestion" (Json.toOptional? Json.toText?)
  return ⟨⟨line, column⟩, level, code, message, suggestion?⟩

/-- The brief of a report that a value stands for. -/
def toBrief? (j : Json) : Option Brief := do
  let path ← j.field? "path" Json.toText?
  let compiled ← j.field? "compiled" Json.toBool?
  let changed ← j.field? "changed" Json.toBool?
  let diagnostics ← j.field? "diagnostics" (Json.toList? toDiagnostic?)
  return ⟨path, compiled, changed, diagnostics⟩

/-- The counts that a value stands for. -/
def toSummary? (j : Json) : Option Summary := do
  let totalFiles ← j.field? "total_files" Json.toNumber?
  let filesChanged ← j.field? "files_changed" Json.toNumber?
  let filesWithProblems ← j.field? "files_with_problems" Json.toNumber?
  let totalProblems ← j.field? "total_problems" Json.toNumber?
  let errors ← j.field? "errors" Json.toNumber?
  let warnings ← j.field? "warnings" Json.toNumber?
  return ⟨totalFiles, filesChanged, filesWithProblems, totalProblems, errors, warnings⟩

/-- The contents that a value stands for. -/
def toContents? (j : Json) : Option Contents := do
  let summary ← j.field? "stats" toSummary?
  let briefs ← j.field? "files" (Json.toList? toBrief?)
  return ⟨summary, briefs⟩

lemma toDiagnostic?_ofDiagnostic (d : Diagnostic) : toDiagnostic? (ofDiagnostic d) = some d := by
  have hlevel : Named.read? (Named.name d.level) = some d.level := by cases d.level <;> decide
  simp (disch := decide) only [toDiagnostic?, ofDiagnostic, Json.field?_head, Json.field?_tail]
  simp [Json.toNumber?, Json.toText?, Json.toOptional?_string, hlevel]

lemma toBrief?_ofReport (r : Report) : toBrief? (ofReport r) = some (Brief.ofReport r) := by
  have hdiagnostics : Json.toList? toDiagnostic? (.array (r.diagnostics.map ofDiagnostic)) =
      some r.diagnostics := by
    simpa using Json.toList?_map toDiagnostic?_ofDiagnostic r.diagnostics
  simp (disch := decide) only [toBrief?, ofReport, Json.field?_head, Json.field?_tail]
  simp [Json.toText?, Json.toBool?, hdiagnostics, Brief.ofReport]

lemma toSummary?_ofSummary (s : Summary) : toSummary? (ofSummary s) = some s := rfl

/-- The value of the reports holds their contents. -/
lemma toContents?_ofReports (reports : List Report) :
    toContents? (ofReports reports) = some (Contents.ofReports reports) := by
  have hbriefs := Json.toList?_map toBrief?_ofReport reports
  simp (disch := decide) only [toContents?, ofReports, Json.field?_head, Json.field?_tail]
  simp [toSummary?_ofSummary, hbriefs, Contents.ofReports]

/-! ### The text -/

/-- Only what is in its brief goes into the value of a report. -/
lemma ofReport_factors : Function.FactorsThrough ofReport Brief.ofReport := by
  intro r s h
  obtain ⟨hpath, hcompiled, hchanged, hdiagnostics⟩ := Brief.mk.inj h
  rw [ofReport, hpath, hcompiled, hchanged, hdiagnostics, ← ofReport]

/-- Only the contents go into the value of the reports. -/
lemma ofReports_congr {reports others : List Report}
    (h : Contents.ofReports reports = Contents.ofReports others) :
    ofReports reports = ofReports others := by
  obtain ⟨hsummary, hbriefs⟩ := Contents.mk.inj h
  have hfactor := ofReport_factors.extend_comp fun _ => Json.null
  have hfiles : reports.map ofReport = others.map ofReport := by
    rw [← hfactor, ← List.map_map, ← List.map_map, hbriefs]
  rw [ofReports, hsummary, hfiles, ← ofReports]

/-- **The text for programs holds the contents, and nothing else.**  It is one JSON value, from
which the counts and the brief of each report, in order, are read back; and the texts of two lists
of reports are the same only if all of that is the same, and if it is. -/
theorem contents_render (reports others : List Report) :
    (∃ value, Json.read? (render reports) = some value ∧
        toContents? value = some (Contents.ofReports reports)) ∧
      (render reports = render others ↔
        Contents.ofReports reports = Contents.ofReports others) := by
  have hread (reports : List Report) : Json.read? (render reports) = some (ofReports reports) :=
    Json.read?_print _
  refine ⟨⟨_, hread reports, toContents?_ofReports reports⟩, fun h => ?_, fun h => ?_⟩
  · have hvalue : ofReports reports = ofReports others := by
      apply Option.some.inj
      rw [← hread, h, hread]
    apply Option.some.inj
    rw [← toContents?_ofReports, hvalue, toContents?_ofReports]
  · rw [render, ofReports_congr h, ← render]

/-- A path and a message that are written like JSON, and a suggestion without a character. -/
example :
    let path : Text := "a\",\n  \"compiled\": true"
    let d : Diagnostic := ⟨⟨4, 2⟩, .error, "\\", "\\n\\u0001\n\x01]", some ""⟩
    (Json.read? (render [⟨path, "a", none, false, [d]⟩])).bind toContents? =
      some ⟨⟨1, 0, 1, 1, 1, 0⟩, [⟨path, false, false, [d]⟩]⟩ := by
  decide +kernel

end Machine

end TemplateGuards
