import TemplateGuards.Text

/-!
File trees.  A tree is a file or a directory of named trees; a place in it is the list of names
that leads to it from the top.  There are no links: no entry stands for another one, and no two
places hold one file.

* `Content`: what a file holds, a text or bytes that are none;
* `Tree.get?`, `Tree.put`: the tree at a place, and the tree with another one there;
* `Tree.files`: every file with its place, depth first and with the names of each directory in
  order;
* `Tree.changes`: the texts that one tree holds and another does not.
-/

namespace TemplateGuards

/-- What a file holds. -/
inductive Content
  /-- The UTF-8 form of a text. -/
  | text (text : Text)
  /-- Bytes that are not the UTF-8 form of any text. -/
  | binary
deriving DecidableEq, Repr

/-- A file, or a directory of named trees. -/
inductive Tree
  | file (content : Content)
  | directory (entries : List (Text × Tree))

namespace Tree

/-- Is the tree a directory? -/
def isDirectory : Tree → Bool
  | directory _ => true
  | file _ => false

/-- The tree at a place. -/
def get? : Tree → List Text → Option Tree
  | t, [] => some t
  | directory entries, n :: ns =>
    match entries.lookup n with
    | some t => get? t ns
    | none => none
  | file _, _ :: _ => none

/-- The entries with another tree under a name. -/
def putEntry (name : Text) (new : Tree) : List (Text × Tree) → List (Text × Tree)
  | [] => [(name, new)]
  | (n, t) :: entries =>
    if n = name then (n, new) :: entries else (n, t) :: putEntry name new entries

/-- The tree with another one at a place, provided that the place lies in a directory of it. -/
def put : Tree → List Text → Tree → Tree
  | _, [], new => new
  | directory entries, [n], new => directory (putEntry n new entries)
  | directory entries, n :: ns, new =>
    match entries.lookup n with
    | some t => directory (putEntry n (put t ns new) entries)
    | none => directory entries
  | file content, _ :: _, _ => file content

/-! ### Files -/

/-- Named things in the order of their names. -/
def byName {α : Type} (named : List (Text × α)) : List (Text × α) :=
  named.mergeSort fun a b => (compare a.1 b.1).isLE

mutual

/-- Every file of a tree with its place, depth first, the entries of a directory in the order of
their names. -/
def files : Tree → List (List Text × Content)
  | file content => [([], content)]
  | directory entries =>
    (byName (filesOfEntries entries)).flatMap fun (name, inner) =>
      inner.map fun (place, content) => (name :: place, content)

/-- The files of each entry of a directory, with their places below the entry. -/
def filesOfEntries : List (Text × Tree) → List (Text × List (List Text × Content))
  | [] => []
  | (name, t) :: entries => (name, files t) :: filesOfEntries entries

end

/-- The texts that the files of `after` hold and those of `before` do not, with their places. -/
def changes (before after : Tree) : List (List Text × Text) :=
  after.files.filterMap fun (place, content) =>
    match content, before.get? place with
    | .text new, some (file old) => if old = .text new then none else some (place, new)
    | .text new, _ => some (place, new)
    | .binary, _ => none

/-! ### Laws -/

/-- A place below a place is looked up in the tree at the first. -/
theorem get?_append (t : Tree) (place below : List Text) :
    t.get? (place ++ below) = (t.get? place).bind (·.get? below) := by
  induction place generalizing t with
  | nil => simp [get?]
  | cons n ns ih =>
    cases t with
    | file content => simp [get?]
    | directory entries =>
      cases h : entries.lookup n with
      | none => simp [get?, h]
      | some inner => simp [get?, h, ih]

theorem lookup_mem {α : Type} {name : Text} {a : α} {named : List (Text × α)}
    (h : named.lookup name = some a) : (name, a) ∈ named := by
  induction named with
  | nil => simp at h
  | cons e es ih =>
    rw [List.lookup_cons] at h
    split at h
    · next hn =>
      obtain rfl : name = e.1 := by simpa using hn
      obtain rfl : e.2 = a := by simpa using h
      simp
    · exact List.mem_cons_of_mem _ (ih h)

theorem mem_filesOfEntries {name : Text} {t : Tree} {entries : List (Text × Tree)}
    (h : (name, t) ∈ entries) : (name, files t) ∈ filesOfEntries entries := by
  induction entries with
  | nil => simp at h
  | cons e es ih =>
    rcases List.mem_cons.1 h with rfl | h
    · simp [filesOfEntries]
    · simp [filesOfEntries, ih h]

/-- A file at a place is listed with that place. -/
theorem mem_files_of_get? {t : Tree} {place : List Text} {content : Content}
    (h : t.get? place = some (file content)) : (place, content) ∈ t.files := by
  induction place generalizing t with
  | nil =>
    obtain rfl : t = file content := by simpa [get?] using h
    simp [files]
  | cons n ns ih =>
    cases t with
    | file c => simp [get?] at h
    | directory entries =>
      cases hl : entries.lookup n with
      | none => simp [get?, hl] at h
      | some inner =>
        have hin : inner.get? ns = some (file content) := by simpa [get?, hl] using h
        have hmem := mem_filesOfEntries (lookup_mem hl)
        simp only [files, byName, List.mem_flatMap, List.mem_mergeSort]
        exact ⟨_, hmem, by simpa using ih hin⟩

end Tree

end TemplateGuards
