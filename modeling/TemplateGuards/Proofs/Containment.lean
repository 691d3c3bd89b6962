import Mathlib.Data.List.Permutation
import TemplateGuards.Proofs.ReportNames

/-!
Where outputs go.  A report on a file has names for its relative path, whether the file was named
itself, however its path was spelled, or found below a directory; its destination therefore lies
strictly below the output directory.

* `Report.GoesBelow`: what it means that a report goes below every output directory;
* `Disk.place_of_locate_destination`: where the destination of a report is on a disk;
* `Compiler.compilePaths_goesBelow`: the reports on a list of paths.
-/

namespace TemplateGuards

open TemplateGuards.Path Disk

variable {d : Disk} {r : Report} {names : List Text}

/-- The report goes to a place some names below the output directory, whichever that is. -/
structure Report.GoesBelow (r : Report) (names : List Text) : Prop where
  ne_nil : names ≠ []
  isName : ∀ n ∈ names, IsName n
  relativePath_ne_nil : r.relativePath ≠ []
  /-- The relative path has no root, no `.` and no `..`. -/
  components : components r.relativePath = names.map .name
  destination : ∀ outDir,
    Path.components (r.destination outDir) = Path.components outDir ++ names.map .name
  /-- On every disk that has both, the destination is below the output directory. -/
  place : ∀ (d : Disk) (outDir : Text) (top place : List Text), d.locate outDir = .ok top →
    d.locate (r.destination outDir) = .ok place → place = top ++ names

/-- Where a destination can be followed, it leads below the output directory. -/
lemma Disk.place_of_locate_destination {outDir : Text} {top place : List Text}
    (h : IsPlace names) (htop : d.locate outDir = .ok top)
    (hplace : d.locate (Disk.destination outDir names) = .ok place) : place = top ++ names := by
  obtain ⟨front, hfront, hsteps⟩ := segments_destination outDir h
  have hnames : names.filter (fun s => !isIdle s) = names :=
    List.filter_eq_self.mpr fun n hn => by simp [(h.isName n hn).not_idle]
  have houtDir : d.follow (d.startOf outDir) (steps outDir) = .ok top :=
    (follow_steps_iff.mp (locate_eq_ok_iff.mp htop).2).1
  have hway := (follow_steps_iff.mp (locate_eq_ok_iff.mp hplace).2).1
  rw [startOf_destination d outDir h, hfront, List.filter_append, hsteps, hnames] at hway
  rw [walk_of_follow hway, walk_append, ← walk_of_follow houtDir, walk_of_isName h.isName]

/-- A report whose relative path consists of names goes below every output directory. -/
lemma Report.HasPlace.goesBelow (h : r.HasPlace names) : r.GoesBelow names where
  ne_nil := h.isPlace.ne_nil
  isName := h.isPlace.isName
  relativePath_ne_nil hnil := by
    have hnone := components_ofNames h.isPlace.ne_nil h.isPlace.isName
    rw [← h.relativePath, hnil] at hnone
    exact h.isPlace.ne_nil (List.map_eq_nil_iff.mp hnone.symm)
  components := by
    rw [h.relativePath, components_ofNames h.isPlace.ne_nil h.isPlace.isName]
  destination outDir := by
    rw [Report.destination, h.relativePath,
      components_join outDir h.isPlace.ne_nil h.isPlace.isName]
  place d outDir top place htop hplace := by
    rw [h.destination_eq] at hplace
    exact place_of_locate_destination h.isPlace htop hplace

/-- **Outputs stay inside the output directory.**  Every report on a list of paths, of whatever
form they are, has a relative path of names alone, at least one of them, and so goes strictly below
the output directory. -/
theorem Compiler.compilePaths_goesBelow {c : Compiler} {d : Disk} {paths : List Text}
    {race : Race CompileFault} {reports : List Report} (hroot : d.root.Named)
    (h : c.compilePaths d paths race = .ok reports) :
    ∀ r ∈ reports, ∃ names, r.GoesBelow names := by
  intro r hr
  obtain ⟨names, hnames⟩ := hasPlace_of_compilePaths hroot h r hr
  exact ⟨names, hnames.goesBelow⟩

/-- A directory and a file in it, with separators, `.` and `..` in the paths.  The path of the file
has more names below an output directory than its place has. -/
theorem Compiler.compilePaths_goesBelow_spelled :
    let entries : List (Text × Tree) := [("a.blade.php", .file (.text "x")),
      ("b", .directory [("c.blade.php", .file (.text "@endallows"))])]
    let d : Disk := ⟨.directory [("w", .directory [("v", .directory entries)])], ["w"]⟩
    let c : Compiler := ⟨[.authorization Preset.blade.dialect .allow], .default⟩
    let paths : List Text := ["./v/../v//", "/w//v/../v/./a.blade.php"]
    d.root.Named ∧ ∃ reports, c.compilePaths d paths = .ok reports ∧
      reports.map Report.relativePath =
        ["a.blade.php", "b/c.blade.php", "w/v/v/a.blade.php"].map String.toList ∧
      ∀ r ∈ reports, ∃ names, r.GoesBelow names := by
  intro entries d c paths
  have hroot : d.root.Named := by
    refine .directory (List.forall_mem_singleton.mpr ⟨by decide, .directory ?_⟩)
    refine List.forall_mem_singleton.mpr ⟨by decide, .directory ?_⟩
    refine List.forall_mem_cons.mpr ⟨⟨by decide, .file _⟩, ?_⟩
    refine List.forall_mem_singleton.mpr ⟨by decide, .directory ?_⟩
    exact List.forall_mem_singleton.mpr ⟨by decide, .file _⟩
  have hfiles : (Tree.directory entries).files =
      [(["a.blade.php"].map String.toList, .text "x"),
        (["b", "c.blade.php"].map String.toList, .text "@endallows")] := by cbv
  have hdirectory : c.targets d "./v/../v//" =
      .ok [⟨"./v/../v//a.blade.php", "a.blade.php"⟩,
        ⟨"./v/../v//b/c.blade.php", "b/c.blade.php"⟩] := by
    have htree : d.tree? "./v/../v//" = some (.directory entries) := rfl
    simp only [targets, htree, targetsBelow, hfiles]
    decide +kernel
  have hfile : c.targets d "/w//v/../v/./a.blade.php" =
      .ok [⟨"/w//v/../v/./a.blade.php", "w/v/v/a.blade.php"⟩] := by decide +kernel
  have hpaths : (c.compilePaths d paths).map (List.map Report.relativePath) =
      .ok (["a.blade.php", "b/c.blade.php", "w/v/v/a.blade.php"].map String.toList) := by
    simp only [compilePaths, paths, List.mapM_cons, List.mapM_nil, hdirectory, hfile]
    decide +kernel
  cases hreports : c.compilePaths d paths with
  | error fault => simp [hreports, Except.map] at hpaths
  | ok reports =>
      rw [hreports] at hpaths
      exact ⟨hroot, reports, rfl, Except.ok.inj hpaths, compilePaths_goesBelow hroot hreports⟩

end TemplateGuards
