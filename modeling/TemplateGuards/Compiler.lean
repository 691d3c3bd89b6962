import TemplateGuards.Config.Basic
import TemplateGuards.Files.Disk
import TemplateGuards.Report.Basic

/-!
Compiling the templates of a disk.  A path that names a file stands for that file; one that names
a directory stands for the files below it that the patterns of the configuration select, depth
first and in the order of their names.  Every path is looked up before any file is read.

The files are read and compiled side by side.  The reports are in the order of the files, but where
several files cannot be read it is a race between them which one is complained of.

* `Race.collect`: what comes of tasks that are done side by side (`Race.collect_eq_ok_iff`,
  `Race.exists_collect_eq_error_iff`);
* `Compiler.ofConfig`: the compiler of a configuration;
* `Compiler.targets`: the files that a path stands for;
* `Compiler.compilePaths`: the reports on all files that a list of paths stands for.
-/

namespace TemplateGuards

/-- Which of several failures is noticed first, where tasks are done side by side.  Nothing else is
known of it than that it is one of them. -/
structure Race (ε : Type) where
  first : (failures : List ε) → failures ≠ [] → ε
  first_mem : ∀ failures h, first failures h ∈ failures

namespace Race

variable {ε α : Type}

/-- The failure of the first task is noticed first, as if one task were done after the other. -/
def inOrder : Race ε where
  first failures h := failures.head h
  first_mem _ h := List.head_mem h

/-- One failure is noticed first wherever it is among them. -/
def favouring [DecidableEq ε] (e : ε) : Race ε where
  first failures h := if e ∈ failures then e else failures.head h
  first_mem failures h := by
    split
    · assumption
    · exact List.head_mem h

/-- The failures among the results of tasks. -/
def failures (results : List (Except ε α)) : List ε :=
  results.filterMap fun
    | .ok _ => none
    | .error e => some e

/-- What comes of tasks that are done side by side: the values of all of them in order, or the
failure that is noticed first. -/
def collect (race : Race ε) (results : List (Except ε α)) : Except ε (List α) :=
  if h : failures results = [] then .ok (results.filterMap Except.toOption)
  else .error (race.first (failures results) h)

theorem mem_failures_iff {results : List (Except ε α)} {e : ε} :
    e ∈ failures results ↔ .error e ∈ results := by
  rw [failures, List.mem_filterMap]
  constructor
  · rintro ⟨result, hmem, h⟩
    cases result with
    | ok value => cases h
    | error e' =>
      cases h
      exact hmem
  · exact fun h => ⟨_, h, rfl⟩

/-- There are values where no task fails, whatever the race. -/
theorem collect_eq_ok_iff {race : Race ε} {results : List (Except ε α)} {values : List α} :
    race.collect results = .ok values ↔ results = values.map .ok := by
  constructor
  · intro h
    unfold collect at h
    split at h
    · next hnone =>
      obtain rfl := Except.ok.inj h
      clear h
      induction results with
      | nil => rfl
      | cons result results ih =>
        cases result with
        | ok value => exact congrArg (.ok value :: ·) (ih hnone)
        | error e => cases hnone
    · cases h
  · rintro rfl
    have hnone : failures (values.map (.ok : α → Except ε α)) = [] := by
      simp [failures, List.filterMap_map]
    rw [collect, dif_pos hnone]
    simp [List.filterMap_map, Function.comp_def, Except.toOption]

/-- The failure that is noticed is one of those that there are. -/
theorem mem_of_collect_eq_error {race : Race ε} {results : List (Except ε α)} {e : ε}
    (h : race.collect results = .error e) : .error e ∈ results := by
  unfold collect at h
  split at h
  · cases h
  · obtain rfl := Except.error.inj h
    exact mem_failures_iff.1 (race.first_mem _ _)

/-- Each of the failures may be the one that is noticed first, and no other. -/
theorem exists_collect_eq_error_iff [DecidableEq ε] {results : List (Except ε α)} {e : ε} :
    (∃ race : Race ε, race.collect results = .error e) ↔ .error e ∈ results := by
  refine ⟨fun ⟨_, h⟩ => mem_of_collect_eq_error h, fun h => ⟨favouring e, ?_⟩⟩
  have hmem : e ∈ failures results := mem_failures_iff.2 h
  have hne : failures results ≠ [] := List.ne_nil_of_mem hmem
  rw [collect, dif_neg hne]
  exact congrArg Except.error (if_pos hmem)

end Race

/-- A chain of extensions and the configuration that selects the files it is for. -/
structure Compiler where
  chain : List Extension
  config : Config

/-- Why paths cannot be compiled. -/
inductive CompileFault
  /-- A path names nothing. -/
  | missing (path : Text)
  | unreadable (path : Text) (fault : FileFault)
deriving DecidableEq, Repr

/-- The sentences that report the fault, the outermost first. -/
def CompileFault.chain : CompileFault → List Text
  | missing path => ["Path does not exist: " ++ path]
  | unreadable path fault => ["Failed to read file " ++ path, fault.message]

/-- A file to compile. -/
structure Target where
  path : Text
  /-- The path of the compiled file below an output directory. -/
  relativePath : Text
deriving DecidableEq, Repr

namespace Compiler

/-- The compiler of a configuration: the authorization directives in its dialect. -/
def ofConfig (config : Config) : Except InvalidDialect Compiler := do
  let dialect ← config.resolveDialect
  return ⟨[.authorization dialect config.nesting], config⟩

/-- The report on a text under a path. -/
def compileContent (c : Compiler) (path content : Text) : Report :=
  Report.ofContent c.chain path content

/-- Do the patterns select the file at the path? -/
def selects (c : Compiler) (path : Text) : Bool :=
  !c.config.isIgnored path && c.config.isTemplate path

/-- The files below a directory that the patterns select. -/
def targetsBelow (c : Compiler) (directory : Text) (t : Tree) : List Target :=
  t.files.filterMap fun (place, _) =>
    let path := Path.below directory place
    if c.selects path then some ⟨path, (Path.behind? directory path).getD path⟩ else none

/-- The files that a path stands for. -/
def targets (c : Compiler) (d : Disk) (path : Text) : Except CompileFault (List Target) :=
  match d.tree? path with
  | some (.file _) => .ok [⟨path, Path.withinOutput path⟩]
  | some (.directory entries) => .ok (c.targetsBelow path (.directory entries))
  | none => .error (.missing path)

/-- The report on a file. -/
def compileTarget (c : Compiler) (d : Disk) (t : Target) : Except CompileFault Report :=
  match d.read t.path with
  | .ok content => .ok { c.compileContent t.path content with relativePath := t.relativePath }
  | .error fault => .error (.unreadable t.path fault)

/-- The report on the file at a path, whatever the patterns say of it. -/
def compileFile (c : Compiler) (d : Disk) (path : Text) : Except CompileFault Report :=
  c.compileTarget d ⟨path, Path.withinOutput path⟩

/-- The reports on all files that the paths stand for, in order. -/
def compilePaths (c : Compiler) (d : Disk) (paths : List Text)
    (race : Race CompileFault := .inOrder) : Except CompileFault (List Report) := do
  let found ← paths.mapM (c.targets d)
  race.collect (found.flatten.map (c.compileTarget d))

end Compiler

end TemplateGuards
