import TemplateGuards.Json
import TemplateGuards.Report.Basic

/-!
The formats in which reports are shown.

For people there is for each file with diagnostics its path, a line for each of them and, where
there is one, the suggestion below; at the end a line of counts.  With colours, single words are
put between the escape sequences of a terminal, and nothing else differs.  For programs there are
the counts and, for each file, its path, what became of it and its diagnostics, as one JSON value.

* `Human.render`, `Machine.render`: reports for people, and for programs;
* `Format.render`: reports in either format.
-/

namespace TemplateGuards

/-! ### For people -/

namespace Human

/-- The colours and weights in use, by the codes of a terminal. -/
inductive Ink
  | bold
  | red
  | green
  | yellow
  | cyan
  | grey
deriving DecidableEq, Repr

/-- The code of a terminal for an ink. -/
def Ink.code : Ink → Text
  | bold => "1"
  | red => "31"
  | green => "32"
  | yellow => "33"
  | cyan => "36"
  | grey => "90"

/-- A text in an ink, if colours are used. -/
def paint (colors : Bool) (ink : Ink) (text : Text) : Text :=
  if colors then "\x1b[" ++ ink.code ++ "m" ++ text ++ "\x1b[0m" else text

/-- The ink of a level. -/
def levelInk : Level → Ink
  | .error => .red
  | .warning => .yellow

/-- A count of things, in the plural unless there is one. -/
def count (n : Nat) (thing : Text) : Text :=
  Text.ofNat n ++ " " ++ thing ++ (if n = 1 then [] else ['s'])

/-- The lines of a diagnostic. -/
def diagnosticLines (colors : Bool) (d : Diagnostic) : List Text :=
  let first : Text :=
    "  " ++ paint colors .cyan d.position.toText ++ ": " ++
      paint colors (levelInk d.level) (Named.name d.level) ++ " " ++ d.message ++ " " ++
      paint colors .grey ("(" ++ d.code ++ ")")
  let second (suggestion : Text) : Text :=
    "    " ++ paint colors .cyan "Suggestion:" ++ " " ++ suggestion
  first :: (d.suggestion?.map second).toList

/-- The lines of a report; there are none without diagnostics. -/
def reportLines (colors : Bool) (r : Report) : List Text :=
  if r.diagnostics.isEmpty then []
  else paint colors .bold r.path :: r.diagnostics.flatMap (diagnosticLines colors) ++ [[]]

/-- The line of counts. -/
def summaryLine (colors : Bool) (s : Summary) : Text :=
  let errors := if s.errors = 0 then [] else [paint colors .red (count s.errors "error")]
  let warnings :=
    if s.warnings = 0 then [] else [paint colors .yellow (count s.warnings "warning")]
  match errors ++ warnings with
  | [] => paint colors .green ("No problems found in " ++ count s.totalFiles "file")
  | parts => "Found " ++ List.intercalate ", " parts

/-- The reports as a text for people. -/
def render (colors : Bool) (reports : List Report) : Text :=
  List.intercalate "\n"
    (reports.flatMap (reportLines colors) ++ [summaryLine colors (Summary.ofReports reports)])

end Human

/-! ### For programs -/

namespace Machine

/-- A diagnostic as a JSON value. -/
def ofDiagnostic (d : Diagnostic) : Json :=
  .object
    [("line", .number d.position.line),
     ("column", .number d.position.column),
     ("level", .string (Named.name d.level)),
     ("code", .string d.code),
     ("message", .string d.message),
     ("suggestion", (d.suggestion?.map Json.string).getD .null)]

/-- A report as a JSON value; a template without output was not compiled. -/
def ofReport (r : Report) : Json :=
  .object
    [("path", .string r.path),
     ("compiled", .bool r.output?.isSome),
     ("changed", .bool r.changed),
     ("diagnostics", .array (r.diagnostics.map ofDiagnostic))]

/-- The counts as a JSON value. -/
def ofSummary (s : Summary) : Json :=
  .object
    [("total_files", .number s.totalFiles),
     ("files_changed", .number s.filesChanged),
     ("files_with_problems", .number s.filesWithProblems),
     ("total_problems", .number s.totalProblems),
     ("errors", .number s.errors),
     ("warnings", .number s.warnings)]

/-- The reports and their counts as a JSON value. -/
def ofReports (reports : List Report) : Json :=
  .object
    [("stats", ofSummary (Summary.ofReports reports)),
     ("files", .array (reports.map ofReport))]

/-- The reports as a text for programs. -/
def render (reports : List Report) : Text := (ofReports reports).print

end Machine

/-! ### Both -/

/-- The formats in which reports are shown. -/
inductive Format
  /-- For people. -/
  | human
  /-- For programs. -/
  | json
deriving DecidableEq, Repr

instance : Named Format where
  all := [.human, .json]
  name
    | .human => "human"
    | .json => "json"

/-- The reports in a format; colours are for people only. -/
def Format.render (colors : Bool) (reports : List Report) : Format → Text
  | human => Human.render colors reports
  | json => Machine.render reports

end TemplateGuards
