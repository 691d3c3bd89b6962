import TemplateGuards.CommandLine.Reader
import TemplateGuards.Compiler
import TemplateGuards.Config.Load

/-!
A run of the program: what a command line does in a world of files.  The world is a value, and so
is what comes of a run: the exit code, what is printed, and the disk afterwards.  The world settles
everything but a race between files that cannot be read, which decides what file a failure names.

* `World`, `Outcome`: what a run starts from and what it comes to;
* `gather`: the reports on the files of a command line;
* `distinct`: would two reports be written to one file;
* `configure`, `reportsOn`: the configuration of a run and the reports that it makes;
* `check`, `compileAll`: the two commands that work on templates;
* `run`: a command line in a world.
-/

namespace TemplateGuards

/-- What a run starts from. -/
structure World where
  disk : Disk
  /-- The directory of the user's own configurations. -/
  userDirectory : Text
  /-- What stands on the standard input. -/
  input : Content
  /-- Does the standard output take colours? -/
  colors : Bool

/-! ### Failures -/

/-- Two reports with one destination. -/
structure Collision where
  first : Text
  second : Text
  destination : Text
deriving DecidableEq, Repr

/-- The sentence that reports the collision. -/
def Collision.message (c : Collision) : Text :=
  c.first ++ " and " ++ c.second ++ " would both be written to " ++ c.destination

/-- Why a run fails. -/
inductive Failure
  | loading (fault : LoadFault)
  | setting (fault : SettingFault)
  /-- The dialect to be shown is not valid. -/
  | showing (fault : InvalidDialect)
  /-- The dialect to be compiled into is not valid. -/
  | setup (fault : InvalidDialect)
  /-- The standard input is named among other paths. -/
  | mixedInput
  | input (fault : FileFault)
  | compiling (fault : CompileFault)
  | collision (collision : Collision)
  | creating (path : Text) (fault : FileFault)
  | writing (path : Text) (fault : FileFault)
deriving DecidableEq, Repr

/-- The name of the standard input among paths. -/
def inputName : Text := "-"

/-- The sentences that report the failure, the outermost first. -/
def Failure.chain : Failure → List Text
  | loading fault => "Failed to load configuration".toList :: fault.chain
  | setting fault => fault.chain
  | showing fault => fault.chain
  | setup fault => "Failed to set up compiler".toList :: fault.chain
  | mixedInput => ["'" ++ inputName ++ "' cannot be combined with other paths"]
  | input fault => ["Failed to read standard input", fault.message]
  | compiling fault => "Compilation failed".toList :: fault.chain
  | collision c => [c.message]
  | creating path fault => ["Failed to create directory " ++ path, fault.message]
  | writing path fault => ["Failed to write " ++ path, fault.message]

/-! ### Outcomes -/

/-- How a run ends. -/
inductive Ending
  /-- It is done; some templates may have errors. -/
  | done (clean : Bool)
  | failed (failure : Failure)
  /-- The command line means nothing. -/
  | usage (message : Text)
deriving DecidableEq, Repr

/-- What a run comes to. -/
structure Outcome where
  ending : Ending
  /-- What is printed on the standard output. -/
  output : Text
  /-- What is printed on the standard error output, reports on failures apart. -/
  errors : Text
  disk : Disk

/-- The exit code of a run. -/
def Outcome.exitCode (o : Outcome) : Nat :=
  match o.ending with
  | .done clean => if clean then 0 else 1
  | .failed _ => 1
  | .usage _ => 2

/-- A text as a line. -/
def line (t : Text) : Text := t ++ "\n"

/-! ### Reports -/

/-- The path under which the standard input is reported. -/
def inputPath : Text := "<stdin>"

/-- The reports on the files of a command line, or on the standard input where that is the only
file. -/
def gather (w : World) (c : Compiler) (files : List Text)
    (race : Race CompileFault := .inOrder) : Except Failure (List Report) :=
  if files.contains inputName then
    if files.length > 1 then .error .mixedInput
    else
      match w.input with
      | .text content =>
        .ok [{ c.compileContent inputPath content with relativePath := inputName }]
      | .binary => .error (.input .notText)
  else (c.compilePaths w.disk files race).mapError .compiling

/-- The reports that a command line wants to see. -/
def CommandLine.select (c : CommandLine) (reports : List Report) : List Report :=
  if c.errorsOnly then reports.map Report.keepErrors else reports

/-- Is the report on the standard input? -/
def Report.isInput (r : Report) : Bool := r.relativePath == inputName

/-- The path to which a report's output is written. -/
def Report.destination (r : Report) (outDir : Text) : Text := Path.join outDir r.relativePath

/-- A report among the earlier ones that is written to the same file as one more would be. -/
def rival? (outDir : Text) (earlier : List Report) (r : Report) : Option Report :=
  earlier.find? fun e =>
    !e.isInput && Path.components (e.destination outDir) == Path.components (r.destination outDir)

/-- Nothing, if no two reports would be written to one file; `earlier` are the reports that
precede. -/
def distinctFrom (outDir : Text) (earlier : List Report) : List Report → Except Collision Unit
  | [] => .ok ()
  | r :: rest =>
    match if r.isInput then none else rival? outDir earlier r with
    | some e => .error ⟨e.path, r.path, r.destination outDir⟩
    | none => distinctFrom outDir (earlier ++ [r]) rest

/-- Nothing, if no two reports would be written to one file below a directory. -/
def distinct (outDir : Text) (reports : List Report) : Except Collision Unit :=
  distinctFrom outDir [] reports

/-! ### Commands -/

/-- The reports on templates, as the command that checks them shows them. -/
def check (w : World) (line : CommandLine) (reports : List Report) : Outcome :=
  let summary := Summary.ofReports reports
  { ending := .done !summary.hasErrors
    output := TemplateGuards.line (line.format.render w.colors reports)
    errors :=
      if line.verbose then
        TemplateGuards.line ("Processed " ++ Text.ofNat summary.totalFiles ++ " files, " ++
          Text.ofNat summary.filesChanged ++ " with directives")
      else []
    disk := w.disk }

/-- The disk with the directories above a file, as far as they can be made, and why no further. -/
def makeRoom (d : Disk) (destination : Text) : Disk × Option Failure :=
  match Path.parent? destination with
  | some parent =>
    let (ready, fault?) := d.prepare parent
    (ready, fault?.map (.creating parent))
  | none => (d, none)

/-- The disk with a text in a file and with the directories above it, and what stands in the
way. -/
def deliver (d : Disk) (destination output : Text) : Disk × Option Failure :=
  match makeRoom d destination with
  | (ready, none) =>
    match ready.write destination output with
    | .ok written => (written, none)
    | .error fault => (ready, some (.writing destination fault))
  | stopped => stopped

/-- What has been printed and written so far. -/
structure Delivery where
  output : Text
  disk : Disk

/-- One report's output printed or written; `none` stands for no directory to write to.  A dry run
only tells what would be done. -/
def emit (outDir? : Option Text) (dryRun : Bool) (so : Delivery) (r : Report) (output : Text) :
    Delivery × Option Failure :=
  match outDir? with
  | some outDir =>
    if r.isInput then (print so, none)
    else if dryRun then
      ({ so with output := so.output ++ line ("Would write " ++ r.destination outDir) }, none)
    else
      let (disk, failure?) := deliver so.disk (r.destination outDir) output
      ({ so with disk }, failure?)
  | none => (print so, none)
where
  /-- The output on the standard output. -/
  print (so : Delivery) : Delivery :=
    { so with output := so.output ++ if dryRun then line ("Would print " ++ r.path) else output }

/-- The outputs of all reports printed or written, up to the first that fails. -/
def emitAll (outDir? : Option Text) (dryRun : Bool) (so : Delivery) :
    List Report → Delivery × Option Failure
  | [] => (so, none)
  | r :: rest =>
    match r.output? with
    | none => emitAll outDir? dryRun so rest
    | some output =>
      match emit outDir? dryRun so r output with
      | (so', none) => emitAll outDir? dryRun so' rest
      | stopped => stopped

/-- An outcome that is a failure, with what has been printed and written before it. -/
def failing (so : Delivery) (failure : Failure) : Outcome :=
  { ending := .failed failure, output := so.output, errors := [], disk := so.disk }

/-- The compilation of templates: their outputs, and a report on those with problems. -/
def compileAll (w : World) (line : CommandLine) (outDir? : Option Text) (dryRun : Bool)
    (reports : List Report) : Outcome :=
  let before : Delivery := ⟨[], w.disk⟩
  match outDir?.map (distinct · reports) with
  | some (.error collision) => failing before (.collision collision)
  | _ =>
    match emitAll outDir? dryRun before reports with
    | (so, some failure) => failing so failure
    | (so, none) =>
      let summary := Summary.ofReports reports
      { ending := .done !summary.hasErrors
        output := so.output
        errors :=
          if summary.hasProblems then
            TemplateGuards.line
              (line.format.render w.colors (reports.filter fun r => !r.diagnostics.isEmpty))
          else []
        disk := so.disk }

/-- The codes of diagnostics with their descriptions. -/
def listCodes : Text :=
  line "Diagnostic codes:" ++ line [] ++
    (Named.all : List Code).flatMap fun code =>
      line ("  " ++ Named.name code) ++ line ("    " ++ code.description)

/-- A configuration and the dialect in effect, for display. -/
def showConfig (config : Config) : Except Failure Text := do
  let dialect ← config.resolveDialect.mapError .showing
  return line "Effective configuration:" ++ line config.toDocument ++
    line "Resolved dialect:" ++ line dialect.toDocument

/-! ### Runs -/

/-- The configuration in effect. -/
def configure (w : World) (line : CommandLine) : Except Failure Config := do
  let loaded ← (w.disk.loadConfig w.userDirectory line.config?).mapError .loading
  match line.configure loaded with
  | (config, none) => return config
  | (_, some fault) => throw (.setting fault)

/-- The reports that a command line wants, under a configuration. -/
def reportsOn (w : World) (line : CommandLine) (config : Config)
    (race : Race CompileFault := .inOrder) : Except Failure (List Report) := do
  let compiler ← (Compiler.ofConfig config).mapError .setup
  return line.select (← gather w compiler line.files race)

/-- The outcome of a command that needs a configuration. -/
def runWith (w : World) (line : CommandLine) (race : Race CompileFault) :
    Except Failure Outcome := do
  let config ← configure w line
  if line.showConfig then
    return { ending := .done true, output := ← showConfig config, errors := [], disk := w.disk }
  let reports ← reportsOn w line config race
  match line.command with
  | .compile outDir? dryRun => return compileAll w line outDir? dryRun reports
  | _ => return check w line reports

/-- The outcome of a command line that means something. -/
def runLine (w : World) (line : CommandLine) (race : Race CompileFault) : Outcome :=
  match line.command with
  | .codes => { ending := .done true, output := listCodes, errors := [], disk := w.disk }
  | _ =>
    match runWith w line race with
    | .ok outcome => outcome
    | .error failure => failing ⟨[], w.disk⟩ failure

/-- The name and the version of the program. -/
def versionLine : Text := line "azd 0.1.0"

/-- The outcome of a command line in a world.  A call for help comes to nothing here: what is said
of the program is not its own work. -/
def run (w : World) (words : List Text) (race : Race CompileFault := .inOrder) : Outcome :=
  match CommandLine.read words with
  | .ok line => runLine w line race
  | .error .help => { ending := .done true, output := [], errors := [], disk := w.disk }
  | .error .version =>
    { ending := .done true, output := versionLine, errors := [], disk := w.disk }
  | .error (.usage message) =>
    { ending := .usage message, output := [], errors := [], disk := w.disk }

end TemplateGuards
