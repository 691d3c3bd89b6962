import TemplateGuards.Config.Document
import TemplateGuards.Files.Disk

/-!
Loading a configuration from a disk.  A file may extend another, named relative to its own
directory, and that one a further one, until a built-in configuration is reached; a file that
names none extends the default one.  A file on the way may not be reached twice, however it is
spelled, and so the way ends: each file on it is one of the finitely many of the disk.

* `Disk.loadAt`: the configuration of a file on top of its bases;
* `Disk.loadConfig`: the configuration of a given file, or of the first place where one is kept.
-/

namespace TemplateGuards

/-- Why a configuration cannot be loaded. -/
inductive LoadFault
  /-- The given file is not there. -/
  | notFound (path : Text)
  /-- A file extends, maybe over others, itself. -/
  | circular (path : Text)
  | unreadable (path : Text) (fault : FileFault)
  | malformed (path : Text)
  /-- The base of a file is neither built in nor there. -/
  | baseNotFound (name : Text)
deriving DecidableEq, Repr

/-- The sentences that report the fault, the outermost first. -/
def LoadFault.chain : LoadFault → List Text
  | notFound path => ["Config file not found: " ++ path]
  | circular path => ["Circular extends: " ++ path ++ " is already being loaded"]
  | unreadable path fault => ["Failed to read config file: " ++ path, fault.message]
  | malformed path => ["Failed to parse config file: " ++ path]
  | baseNotFound name => ["Base configuration '" ++ name ++ "' not found"]

namespace Disk

/-! ### Following the bases -/

/-- The files of the disk whose places are not on the way so far. -/
def unvisited (d : Disk) (way : List (List Text)) : List (List Text × Content) :=
  d.root.files.filter fun (place, _) => !way.contains place

/-- One more file on the way leaves fewer files unvisited. -/
theorem length_unvisited_lt {d : Disk} {way : List (List Text)} {place : List Text}
    {text : Text} (hread : d.readAt place = .ok text) (hnew : way.contains place = false) :
    (d.unvisited (place :: way)).length < (d.unvisited way).length := by
  have hmem := mem_files_of_readAt hread
  have hsub : d.unvisited (place :: way) =
      (d.unvisited way).filter fun file => decide (file.1 ≠ place) := by
    simp only [unvisited, List.filter_filter]
    refine List.filter_congr fun file _ => ?_
    simp [Bool.not_or]
  rw [hsub]
  refine List.length_filter_lt_length_iff_exists.2 ⟨(place, .text text), ?_, by simp⟩
  simpa [unvisited, hmem] using hnew

/-- The path of a base as a file at `path` names it. -/
def basePath (path name : Text) : Text := Path.join ((Path.parent? path).getD ['.']) name

/-- The configuration of the file at a path, on top of its bases.  Here `way` holds the places of
the files that led to it, and `place` is its own. -/
def loadAt (d : Disk) (way : List (List Text)) (path : Text) (place : List Text) :
    Except LoadFault Config :=
  if hnew : way.contains place then .error (.circular path)
  else
    match hread : d.readAt place with
    | .error fault => .error (.unreadable path fault)
    | .ok source =>
      match Config.parse? source with
      | none => .error (.malformed path)
      | some config =>
        let name := config.base?.getD "default"
        match Config.builtIn? name with
        | some base => .ok (config.orBase base)
        | none =>
          match d.locate (basePath path name) with
          | .error _ => .error (.baseNotFound name)
          | .ok base =>
            have : (d.unvisited (place :: way)).length < (d.unvisited way).length :=
              length_unvisited_lt hread (by simpa using hnew)
            (loadAt d (place :: way) (basePath path name) base).map config.orBase
termination_by (d.unvisited way).length

/-- The configuration of the file at a path, on top of its bases. -/
def loadFile (d : Disk) (path : Text) : Except LoadFault Config :=
  match d.locate path with
  | .error _ => .error (.notFound path)
  | .ok place => d.loadAt [] path place

/-! ### Finding the file -/

/-- Where a configuration is kept, the nearest place first: in the working directory under one of
four names, and in the user's own directory of configurations. -/
def configPlaces (userDirectory : Text) : List Text :=
  [".azd.yaml", ".azd.yml", "azd.yaml", "azd.yml",
   Path.below userDirectory ["azd", "config.yaml"]]

/-- The configuration of a given file; without one, that of the first place which holds one, or
the default. -/
def loadConfig (d : Disk) (userDirectory : Text) : Option Text → Except LoadFault Config
  | some path => d.loadFile path
  | none =>
    match (configPlaces userDirectory).find? d.holds with
    | some path => d.loadFile path
    | none => .ok .default

end Disk

end TemplateGuards
