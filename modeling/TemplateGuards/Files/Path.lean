import TemplateGuards.Text

/-!
Paths.  A path is a text and is shown as it was given; what it names depends only on its
components.  Empty components and `.` are skipped, a `.` at the very start apart, and `..` is
kept.

* `Path.components`: the components of a path;
* `Path.join`: a path read relative to another;
* `Path.behind?`: what is left of a path behind another;
* `Path.parent?`: a path without its last component;
* `Path.withinOutput`: a path as it appears below an output directory.
-/

namespace TemplateGuards.Path

/-- The character between components. -/
def separator : Char := '/'

/-- The parts of a path between separators. -/
def segments (path : Text) : List Text := Text.splitOn separator path

/-- Does the path start at the root? -/
def isAbsolute (path : Text) : Bool := path.head? == some separator

/-! ### Components -/

/-- A component of a path. -/
inductive Component
  /-- The root, at the start of an absolute path. -/
  | root
  /-- A `.` at the start of a path. -/
  | current
  /-- A `..`. -/
  | up
  /-- The name of an entry. -/
  | name (name : Text)
deriving DecidableEq, Repr

/-- Is the segment one that names nothing of its own? -/
def isIdle (segment : Text) : Bool := segment == [] || segment == ['.']

/-- The component that a segment is; idle segments are none. -/
def component? (segment : Text) : Option Component :=
  if isIdle segment then none
  else if segment == ['.', '.'] then some .up
  else some (.name segment)

/-- The component that the first segment of a path is. -/
def firstComponent? (path segment : Text) : Option Component :=
  if isAbsolute path then some .root
  else if segment == ['.'] then some .current
  else component? segment

/-- The components of a path. -/
def components (path : Text) : List Component :=
  match segments path with
  | [] => []
  | first :: rest => (firstComponent? path first).toList ++ rest.filterMap component?

/-- The name of a component that is one. -/
def Component.name? : Component → Option Text
  | name n => some n
  | _ => none

/-! ### Composition -/

/-- A path below a directory.  An absolute path is below none and stays as it is. -/
def join (directory path : Text) : Text :=
  if isAbsolute path then path
  else if directory.isEmpty || directory.getLast? == some separator then directory ++ path
  else directory ++ separator :: path

/-- The path of an entry of a directory that lies some names below it. -/
def below (directory : Text) (names : List Text) : Text := names.foldl join directory

/-- The path that consists of names alone. -/
def ofNames (names : List Text) : Text := [separator].intercalate names

/-- How a component is written. -/
def Component.text : Component → Text
  | root => []
  | current => ['.']
  | up => ['.', '.']
  | name n => n

/-- The path that consists of components. -/
def ofComponents : List Component → Text
  | [.root] => [separator]
  | cs => ofNames (cs.map Component.text)

/-- What is left of a path behind the components of another, if it starts with them. -/
def behind? (base path : Text) : Option Text :=
  ((components base).isPrefixOf? (components path)).map ofComponents

/-- A path as it appears below an output directory: its names alone. -/
def withinOutput (path : Text) : Text := ofNames ((components path).filterMap Component.name?)

/-- A list without the elements at its end that satisfy `p`. -/
def dropAtEnd {α : Type} (p : α → Bool) (as : List α) : List α := (as.reverse.dropWhile p).reverse

/-- A path without its last component; a path of no component and the root have no parent. -/
def parent? (path : Text) : Option Text :=
  match segments path with
  | [] => none
  | first :: rest =>
    match dropAtEnd isIdle rest with
    | [] => if first.isEmpty then none else some []
    | kept =>
      match first, dropAtEnd isIdle kept.dropLast with
      | [], [] => some [separator]
      | _, above => some (ofNames (first :: above))

end TemplateGuards.Path
