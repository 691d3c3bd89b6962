import TemplateGuards.Files.Path
import TemplateGuards.Files.Tree

/-!
A disk: a file tree together with the working directory from which relative paths start.  A path
is followed segment by segment: each segment needs a directory to be followed in, empty segments
and `.` stay where they are, and `..` goes up, from the top to the top.  As the tree has no links,
`..` undoes the last name that was followed.

* `FileFault`: why the disk refuses, in the words and numbers of the operating system;
* `Disk.locate`: the place that a path names;
* `Disk.read`: the text of a file;
* `Disk.prepare`, `Disk.write`: the disk with directories or a file added.
-/

namespace TemplateGuards

/-- Why an operation on files is refused. -/
inductive FileFault
  | notFound
  | alreadyExists
  | notADirectory
  | isADirectory
  | notText
deriving DecidableEq, Repr

/-- The sentence that reports the refusal. -/
def FileFault.message : FileFault → Text
  | notFound => "No such file or directory (os error 2)"
  | alreadyExists => "File exists (os error 17)"
  | notADirectory => "Not a directory (os error 20)"
  | isADirectory => "Is a directory (os error 21)"
  | notText => "stream did not contain valid UTF-8"

/-- A file tree and the working directory in it. -/
structure Disk where
  root : Tree
  /-- The place of the working directory. -/
  working : List Text

namespace Disk

/-! ### Looking -/

/-- The tree at a place, if that is a directory. -/
def isDirectoryAt (d : Disk) (place : List Text) : Bool :=
  match d.root.get? place with
  | some t => t.isDirectory
  | none => false

/-- The place that the segments of a path lead to from a place. -/
def follow (d : Disk) (place : List Text) : List Text → Except FileFault (List Text)
  | [] => .ok place
  | s :: rest =>
    if !d.isDirectoryAt place then .error .notADirectory
    else if Path.isIdle s then follow d place rest
    else if s == ['.', '.'] then follow d place.dropLast rest
    else if (d.root.get? (place ++ [s])).isNone then .error .notFound
    else follow d (place ++ [s]) rest

/-- The place from which a path starts. -/
def startOf (d : Disk) (path : Text) : List Text := if Path.isAbsolute path then [] else d.working

/-- The place that a path names.  The empty path names none. -/
def locate (d : Disk) (path : Text) : Except FileFault (List Text) :=
  if path.isEmpty then .error .notFound else d.follow (d.startOf path) (Path.segments path)

/-- The tree that a path names. -/
def tree? (d : Disk) (path : Text) : Option Tree :=
  match d.locate path with
  | .ok place => d.root.get? place
  | .error _ => none

/-- Does the path name a file or a directory? -/
def holds (d : Disk) (path : Text) : Bool := (d.tree? path).isSome

/-- The text of the file at a place. -/
def readAt (d : Disk) (place : List Text) : Except FileFault Text :=
  match d.root.get? place with
  | some (.file (.text text)) => .ok text
  | some (.file .binary) => .error .notText
  | some (.directory _) => .error .isADirectory
  | none => .error .notFound

/-- The text of the file that a path names. -/
def read (d : Disk) (path : Text) : Except FileFault Text := do
  d.readAt (← d.locate path)

/-- A text can be read only from a file that the tree lists. -/
theorem mem_files_of_readAt {d : Disk} {place : List Text} {text : Text}
    (h : d.readAt place = .ok text) : (place, Content.text text) ∈ d.root.files := by
  refine Tree.mem_files_of_get? ?_
  unfold readAt at h
  split at h <;> simp_all

/-! ### Writing -/

/-- The segments of a path that are followed one by one. -/
def steps (path : Text) : List Text := (Path.segments path).filter fun s => !Path.isIdle s

/-- The disk with a new, empty directory at the end of the segments, which are given last first
and followed from a place. -/
def createDirectory (d : Disk) (start : List Text) (last : Text) (above : List Text) :
    Except FileFault Disk := do
  let place ← d.follow start above.reverse
  if !d.isDirectoryAt place then throw .notADirectory
  if last == ['.', '.'] || (d.root.get? (place ++ [last])).isSome then throw .alreadyExists
  return { d with root := d.root.put (place ++ [last]) (.directory []) }

/-- Do the segments, given last first, lead to a directory? -/
def leadsToDirectory (d : Disk) (start backwards : List Text) : Bool :=
  match d.follow start backwards.reverse with
  | .ok place => d.isDirectoryAt place
  | .error _ => false

/-- The disk with a directory at the end of the segments, given last first, and why there is none.
A directory that is there already is no obstacle. -/
def createLast (d : Disk) (start : List Text) (last : Text) (above : List Text) :
    Disk × Option FileFault :=
  match d.createDirectory start last above with
  | .ok made => (made, none)
  | .error fault => (d, if d.leadsToDirectory start (last :: above) then none else some fault)

/-- The disk with a directory at the end of the segments, given last first, and with every
directory above it, as far as they can be made, and why no further. -/
def createAll (d : Disk) (start : List Text) : List Text → Disk × Option FileFault
  | [] => (d, none)
  | last :: above =>
    match d.createDirectory start last above with
    | .error .notFound =>
      match d.createAll start above with
      | (ready, none) => ready.createLast start last above
      | stopped => stopped
    | _ => d.createLast start last above

/-- The disk with the directory that a path names and with every directory above it, as far as
they can be made, and why no further. -/
def prepare (d : Disk) (path : Text) : Disk × Option FileFault :=
  d.createAll (d.startOf path) (steps path).reverse

/-- The disk with the directory that a path names, and with every directory above it. -/
def createDirectories (d : Disk) (path : Text) : Except FileFault Disk :=
  match d.prepare path with
  | (made, none) => .ok made
  | (_, some fault) => .error fault

/-- The disk with a text in the file that a path names. -/
def write (d : Disk) (path : Text) (text : Text) : Except FileFault Disk := do
  if path.isEmpty then throw .notFound
  let segments := Path.segments path
  let place ← d.follow (d.startOf path) segments.dropLast
  if !d.isDirectoryAt place then throw .notADirectory
  let last := segments.getLastD []
  if Path.isIdle last || last == ['.', '.'] then throw .isADirectory
  match d.root.get? (place ++ [last]) with
  | some (.directory _) => throw .isADirectory
  | _ => return { d with root := d.root.put (place ++ [last]) (.file (.text text)) }

end Disk

end TemplateGuards
