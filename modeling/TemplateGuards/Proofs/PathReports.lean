import Mathlib.Data.List.Permutation
import TemplateGuards.Proofs.Listing

/-!
The reports on a list of paths.  A path that names a file stands for that file, and one that names
a directory for the files below it that the patterns select, in the order of their names.  Each of
them is reported on as it would be alone.

* `locate_below`: the path of an entry leads to the entry;
* `Compiler.taken`: the files below a directory that a compiler takes;
* `Compiler.Answers`: the reports on one path;
* `answers_of_targets`: what a compiler reports on one path;
* `compilePaths_answers`: the reports on all paths, or the first path that names nothing.
-/

namespace TemplateGuards

open TemplateGuards.Path Disk

variable {c : Compiler} {d : Disk} {path : Text} {place : List Text}

/-! ### Paths of entries -/

namespace Disk

lemma get?_eq_file_iff {content : Content} :
    d.root.get? place = some (.file content) ↔ d.entryAt? place = some (.file content) := by
  rw [entryAt?, Tree.entryAt?]
  cases d.root.get? place with
  | none => simp
  | some t => cases t <;> simp [Tree.entry]

/-- The path of an entry of a directory leads to the entry. -/
lemma locate_join {name : Text} (hlocate : d.locate path = .ok place)
    (hdir : d.entryAt? place = some .directory) (hname : IsName name)
    (hthere : d.entryAt? (place ++ [name]) ≠ none) :
    d.locate (join path name) = .ok (place ++ [name]) := by
  have hrelative : isAbsolute name = false := by
    simpa [ofNames] using isAbsolute_ofNames (List.forall_mem_singleton.mpr hname)
  have hsegments : segments name = [name] := Text.splitOn_of_not_mem hname.separator_not_mem
  have hpath := (follow_steps_iff.mp (locate_eq_ok_iff.mp hlocate).2).1
  refine locate_eq_ok_iff.mpr ⟨join_ne_nil hname.ne_nil, ?_⟩
  rw [follow_join hrelative hpath hdir, hsegments]
  exact follow_singleton_eq_ok_iff.mpr
    ⟨hdir, (walkStep_of_isName hname).symm, fun _ _ => hthere⟩

/-- The path of what lies below a directory leads there. -/
lemma locate_below {below : List Text} (hlocate : d.locate path = .ok place)
    (hnames : ∀ n ∈ below, IsName n) (hthere : d.entryAt? (place ++ below) ≠ none) :
    d.locate (Path.below path below) = .ok (place ++ below) := by
  induction below using List.reverseRecOn with
  | nil => rwa [List.append_nil]
  | append_singleton above name ih =>
      rw [← List.append_assoc] at hthere ⊢
      have hdir : d.entryAt? (place ++ above) = some .directory :=
        entryAt?_of_append (List.cons_ne_nil name []) hthere
      rw [Path.below, List.foldl_append]
      exact locate_join (ih (fun n hn => hnames n (by simp [hn])) (by simp [hdir])) hdir
        (hnames name (by simp)) hthere

/-- The names that lead to a file of a well-named disk. -/
lemma isName_of_entryAt? (hroot : d.root.WellNamed) {below : List Text} {content : Content}
    (hfile : d.entryAt? (place ++ below) = some (.file content)) : ∀ n ∈ below, IsName n :=
  fun n hn => hroot.named _ (Tree.mem_files_of_get? (get?_eq_file_iff.mpr hfile)) n (by simp [hn])

/-- A file of a well-named disk is read under the path of its entry. -/
lemma read_below (hroot : d.root.WellNamed) {below : List Text} {text : Text}
    (hlocate : d.locate path = .ok place)
    (hfile : d.entryAt? (place ++ below) = some (.file (.text text))) :
    d.read (Path.below path below) = .ok text := by
  rw [Disk.read, locate_below hlocate (isName_of_entryAt? hroot hfile) (by simp [hfile])]
  exact readAt_eq_ok_iff.mpr hfile

end Disk

/-! ### The files that a compiler takes -/

/-- Two lists read from one, element by element. -/
lemma forall₂_filterMap {α β γ : Type} {R : β → γ → Prop} {f : α → Option β} {g : α → Option γ}
    {as : List α} (h : ∀ a ∈ as, Option.Rel R (f a) (g a)) :
    List.Forall₂ R (as.filterMap f) (as.filterMap g) := by
  induction as with
  | nil => exact .nil
  | cons a as ih =>
      have hrest := ih fun a' ha' => h a' (List.mem_cons_of_mem _ ha')
      have ha := h a List.mem_cons_self
      cases hf : f a <;> cases hg : g a <;> rw [hf, hg] at ha <;> cases ha
      · rwa [List.filterMap_cons_none hf, List.filterMap_cons_none hg]
      · next hbc =>
          rw [List.filterMap_cons_some hf, List.filterMap_cons_some hg]
          exact .cons hbc hrest

namespace Compiler

/-- The text of a file below a directory with its place, if it has one and the patterns select
it. -/
def take? (c : Compiler) (directory : Text) : List Text × Content → Option (List Text × Text)
  | (below, .text text) =>
    if c.selects (Path.below directory below) then some (below, text) else none
  | (_, .binary) => none

/-- The texts below a directory that the patterns select, with their places. -/
def taken (c : Compiler) (directory : Text) (t : Tree) : List (List Text × Text) :=
  t.files.filterMap (c.take? directory)

lemma take?_eq_some_iff {file : List Text × Content} {below : List Text} {text : Text} :
    c.take? path file = some (below, text) ↔
      file = (below, .text text) ∧ c.selects (Path.below path below) = true := by
  obtain ⟨below', content⟩ := file
  cases content with
  | binary => simp [take?]
  | text text' =>
      simp only [take?, Option.ite_none_right_eq_some, Option.some.injEq, Prod.mk.injEq,
        Content.text.injEq]
      constructor
      · rintro ⟨hselects, rfl, rfl⟩
        exact ⟨⟨rfl, rfl⟩, hselects⟩
      · rintro ⟨⟨rfl, rfl⟩, hselects⟩
        exact ⟨hselects, rfl, rfl⟩

lemma mem_taken_iff {t : Tree} {below : List Text} {text : Text} :
    (below, text) ∈ c.taken path t ↔
      (below, .text text) ∈ t.files ∧ c.selects (Path.below path below) = true := by
  rw [taken, List.mem_filterMap]
  simp only [take?_eq_some_iff]
  constructor
  · rintro ⟨_, hmem, rfl, hselects⟩
    exact ⟨hmem, hselects⟩
  · rintro ⟨hmem, hselects⟩
    exact ⟨_, hmem, rfl, hselects⟩

/-- What is taken comes in the order of the bytes of the names. -/
lemma pairwise_taken {t : Tree} (h : t.WellNamed) :
    (c.taken path t).Pairwise fun a b => a.1.map Text.bytes < b.1.map Text.bytes := by
  refine h.pairwise_files.filterMap _ fun file file' hlt taken htaken taken' htaken' => ?_
  obtain ⟨rfl, -⟩ := take?_eq_some_iff.mp htaken
  obtain ⟨rfl, -⟩ := take?_eq_some_iff.mp htaken'
  exact List.map_lt (fun _ _ => Text.bytes_lt_bytes) hlt

/-- The report on a text below a directory. -/
def reportBelow (c : Compiler) (directory : Text) (file : List Text × Text) : Report :=
  { c.compileContent (Path.below directory file.1) file.2 with relativePath := ofNames file.1 }

lemma selects_iff {path : Text} :
    c.selects path = true ↔ c.config.isTemplate path = true ∧ c.config.isIgnored path = false := by
  rw [selects, Bool.and_eq_true, Bool.not_eq_true', and_comm]

/-- Every file that the path stands for holds a text. -/
def TakesTexts (c : Compiler) (d : Disk) (path : Text) : Prop :=
  ∀ place below, d.locate path = .ok place →
    (below = [] ∨ c.selects (Path.below path below) = true) →
    d.entryAt? (place ++ below) ≠ some (.file .binary)

/-- A path stands for texts when the files of other content below it are not selected. -/
lemma TakesTexts.of_files (hlocate : d.locate path = .ok place)
    (h : ∀ file ∈ d.root.files, file.2 = .binary → place <+: file.1 →
      file.1 ≠ place ∧ c.selects (Path.below path (file.1.drop place.length)) = false) :
    c.TakesTexts d path := by
  intro place' below hlocate' htakes hfile
  obtain rfl : place = place' := by simpa [hlocate] using hlocate'
  have hmem := Tree.mem_files_of_get? (get?_eq_file_iff.mpr hfile)
  obtain ⟨hne, hselects⟩ := h _ hmem rfl (List.prefix_append _ _)
  rw [List.drop_left] at hselects
  rcases htakes with rfl | htakes
  · exact hne (List.append_nil place)
  · simp [hselects] at htakes

/-- The reports on a path. -/
inductive Answers (c : Compiler) (d : Disk) (path : Text) : List Report → Prop
  /-- A file is reported on whatever the patterns say of it. -/
  | file {place : List Text} {text : Text} {r : Report} (locate : d.locate path = .ok place)
      (entry : d.entryAt? place = some (.file (.text text)))
      (alone : c.compileFile d path = .ok r)
      (report : r = { c.compileContent path text with relativePath := withinOutput path }) :
      Answers c d path [r]
  /-- The files below a directory are reported on once each, in order. -/
  | directory {place : List Text} {files : List (List Text × Text)}
      (locate : d.locate path = .ok place) (entry : d.entryAt? place = some .directory)
      (mem_iff : ∀ below text, (below, text) ∈ files ↔
        d.entryAt? (place ++ below) = some (.file (.text text)) ∧
          c.config.isTemplate (Path.below path below) = true ∧
          c.config.isIgnored (Path.below path below) = false)
      (increasing : files.Pairwise fun a b => a.1.map Text.bytes < b.1.map Text.bytes) :
      Answers c d path (files.map (c.reportBelow path))

/-! ### One path -/

lemma targets_of_file {content : Content} (hlocate : d.locate path = .ok place)
    (hfile : d.entryAt? place = some (.file content)) :
    c.targets d path = .ok [⟨path, withinOutput path⟩] := by
  rw [targets, tree?, hlocate]
  simp only [get?_eq_file_iff.mpr hfile]

lemma targets_of_directory (hlocate : d.locate path = .ok place)
    (hdir : d.entryAt? place = some .directory) :
    ∃ entries, d.root.get? place = some (.directory entries) ∧
      c.targets d path = .ok (c.targetsBelow path (.directory entries)) := by
  obtain ⟨t, hget, ht⟩ := Option.map_eq_some_iff.mp hdir
  cases t with
  | file content => simp [Tree.entry] at ht
  | directory entries =>
      refine ⟨entries, hget, ?_⟩
      rw [targets, tree?, hlocate]
      simp only [hget]

/-- Only a path that names nothing is refused. -/
lemma targets_eq_error_iff {fault : CompileFault} :
    c.targets d path = .error fault ↔ d.holds path = false ∧ fault = .missing path := by
  rw [targets, holds]
  cases d.tree? path with
  | none => simp [eq_comm]
  | some t => cases t <;> simp

/-- A path that names something leads to a file or to a directory. -/
lemma exists_entryAt?_of_targets {ts : List Target} (h : c.targets d path = .ok ts) :
    ∃ place entry, d.locate path = .ok place ∧ d.entryAt? place = some entry := by
  cases hlocate : d.locate path with
  | error fault => simp [targets, tree?, hlocate] at h
  | ok place =>
      cases hget : d.root.get? place with
      | none => simp [targets, tree?, hlocate, hget] at h
      | some t => exact ⟨place, t.entry, rfl, by rw [entryAt?, Tree.entryAt?, hget]; rfl⟩

/-- The targets below a directory are compiled one by one. -/
lemma forall₂_targetsBelow (hroot : d.root.WellNamed) (htexts : c.TakesTexts d path)
    (hlocate : d.locate path = .ok place) {t : Tree}
    (hfiles : ∀ file ∈ t.files, d.entryAt? (place ++ file.1) = some (.file file.2)) :
    List.Forall₂ (fun target r => c.compileTarget d target = .ok r) (c.targetsBelow path t)
      ((c.taken path t).map (c.reportBelow path)) := by
  rw [List.forall₂_map_right_iff]
  refine forall₂_filterMap fun file hmem => ?_
  obtain ⟨below, content⟩ := file
  have hfile := hfiles _ hmem
  cases hselects : c.selects (Path.below path below) with
  | false => cases content <;> simp [take?, hselects]
  | true =>
      cases content with
      | binary => exact absurd hfile (htexts place below hlocate (.inr hselects))
      | text text =>
          simp only [take?, hselects, if_true]
          refine .some ?_
          simp only [compileTarget, read_below hroot hlocate hfile,
            behind?_below path (isName_of_entryAt? hroot hfile)]
          rfl

/-- **What a compiler reports on one path.** -/
lemma answers_of_targets (hroot : d.root.WellNamed) (htexts : c.TakesTexts d path)
    {ts : List Target} (h : c.targets d path = .ok ts) :
    ∃ reports, c.Answers d path reports ∧
      List.Forall₂ (fun target r => c.compileTarget d target = .ok r) ts reports := by
  obtain ⟨place, entry, hlocate, hentry⟩ := exists_entryAt?_of_targets h
  cases entry with
  | file content =>
      cases content with
      | binary => exact absurd (by simpa using hentry) (htexts place [] hlocate (.inl rfl))
      | text text =>
          obtain rfl : [⟨path, withinOutput path⟩] = ts := by
            simpa [targets_of_file hlocate hentry] using h
          have hread : d.read path = .ok text := by
            rw [Disk.read, hlocate]
            exact readAt_eq_ok_iff.mpr hentry
          have hreport : c.compileFile d path =
              .ok { c.compileContent path text with relativePath := withinOutput path } := by
            simp only [compileFile, compileTarget, hread]
          exact ⟨_, .file hlocate hentry hreport rfl, .cons hreport .nil⟩
  | directory =>
      obtain ⟨entries, hget, htargets⟩ := @targets_of_directory c _ _ _ hlocate hentry
      obtain rfl : c.targetsBelow path (.directory entries) = ts := by
        simpa [htargets] using h
      have hnamed : (Tree.directory entries).WellNamed := hroot.get? hget
      have hlisted : ∀ below content, (below, content) ∈ (Tree.directory entries).files ↔
          d.entryAt? (place ++ below) = some (.file content) := fun below content => by
        rw [hnamed.mem_files_iff, ← get?_eq_file_iff, Tree.get?_append, hget]
        rfl
      refine ⟨(c.taken path (.directory entries)).map (c.reportBelow path),
        .directory hlocate hentry ?_ ?_,
        forall₂_targetsBelow hroot htexts hlocate fun file hmem => (hlisted _ _).mp hmem⟩
      · intro below text
        rw [← selects_iff, ← hlisted, mem_taken_iff]
      · exact pairwise_taken hnamed

lemma exists_targets_iff : (∃ ts, c.targets d path = .ok ts) ↔ d.holds path = true := by
  cases h : c.targets d path with
  | ok ts =>
      simp only [Except.ok.injEq, exists_eq', true_iff]
      by_contra hno
      rw [targets_eq_error_iff.mpr ⟨by simpa using hno, rfl⟩] at h
      cases h
  | error fault => simp [(targets_eq_error_iff.mp h).1]

/-! ### All paths -/

/-- A list is not read by `f` exactly when an element is not, and the first such one says why. -/
lemma mapM_eq_error_iff {α β ε : Type} {f : α → Except ε β} {as : List α} {e : ε} :
    as.mapM f = .error e ↔ ∃ before a after, as = before ++ a :: after ∧
      (∀ b ∈ before, ∃ x, f b = .ok x) ∧ f a = .error e := by
  induction as with
  | nil => simp [pure, Except.pure]
  | cons a as ih =>
      simp only [List.mapM_cons, bind_eq_error_iff, ih]
      constructor
      · rintro (ha | ⟨x, hx, ⟨before, a', after, rfl, hbefore, ha'⟩ | ⟨_, _, hok⟩⟩)
        · exact ⟨[], a, as, rfl, by simp, ha⟩
        · exact ⟨a :: before, a', after, rfl, List.forall_mem_cons.mpr ⟨⟨x, hx⟩, hbefore⟩, ha'⟩
        · cases hok
      · rintro ⟨before, a', after, heq, hbefore, ha'⟩
        cases before with
        | nil =>
            obtain ⟨rfl, rfl⟩ := List.cons.inj heq
            exact .inl ha'
        | cons b before =>
            obtain ⟨rfl, rfl⟩ := List.cons.inj heq
            obtain ⟨⟨x, hx⟩, hbefore⟩ := List.forall_mem_cons.mp hbefore
            exact .inr ⟨x, hx, .inl ⟨before, a', after, rfl, hbefore, ha'⟩⟩

/-- Where every path names something, all of them are reported on. -/
lemma exists_groups (hroot : d.root.WellNamed) {paths : List Text}
    (htexts : ∀ path ∈ paths, c.TakesTexts d path) {found : List (List Target)}
    (hfound : List.Forall₂ (fun path ts => c.targets d path = .ok ts) paths found) :
    ∃ groups, List.Forall₂ (c.Answers d) paths groups ∧
      List.Forall₂ (List.Forall₂ fun target r => c.compileTarget d target = .ok r)
        found groups := by
  induction hfound with
  | nil => exact ⟨[], .nil, .nil⟩
  | cons htargets _ ih =>
      obtain ⟨htext, hrest⟩ := List.forall_mem_cons.mp htexts
      obtain ⟨reports, hanswers, hcompiled⟩ := answers_of_targets hroot htext htargets
      obtain ⟨groups, hgroups, hall⟩ := ih hrest
      exact ⟨reports :: groups, .cons hanswers hgroups, .cons hcompiled hall⟩

/-- **The reports on a list of paths.**  Where every file that the paths stand for holds a text,
the first path that names nothing is the only thing that can be refused; and where there is none,
the reports are those on each path, in the order of the paths. -/
theorem compilePaths_answers {c : Compiler} {d : Disk} {paths : List Text}
    (race : Race CompileFault) (hroot : d.root.WellNamed)
    (htexts : ∀ path ∈ paths, c.TakesTexts d path) :
    (∀ fault, c.compilePaths d paths race = .error fault ↔ ∃ before path after,
      paths = before ++ path :: after ∧ (∀ p ∈ before, d.holds p = true) ∧
        d.holds path = false ∧ fault = .missing path) ∧
    ((∀ path ∈ paths, d.holds path = true) → ∃ groups,
      List.Forall₂ (c.Answers d) paths groups ∧
        c.compilePaths d paths race = .ok groups.flatten) := by
  have hmissing (fault : CompileFault) : paths.mapM (c.targets d) = .error fault ↔
      ∃ before path after, paths = before ++ path :: after ∧ (∀ p ∈ before, d.holds p = true) ∧
        d.holds path = false ∧ fault = .missing path := by
    rw [mapM_eq_error_iff]
    simp only [exists_targets_iff, targets_eq_error_iff]
  cases hfound : paths.mapM (c.targets d) with
  | error fault' =>
      have hpaths : c.compilePaths d paths race = .error fault' := by
        rw [compilePaths, hfound]
        rfl
      refine ⟨fun fault => ?_, fun hall => ?_⟩
      · rw [← hmissing, hfound, hpaths, Except.error.injEq, Except.error.injEq]
      · obtain ⟨before, path, after, rfl, -, hpath, -⟩ := (hmissing fault').mp hfound
        exact absurd (hall path (by simp)) (by simp [hpath])
  | ok found =>
      obtain ⟨groups, hgroups, hcompiled⟩ := exists_groups hroot htexts (mapM_eq_ok_iff.mp hfound)
      have hpaths : c.compilePaths d paths race = .ok groups.flatten :=
        compilePaths_eq_ok_iff.mpr ⟨found, hfound, List.rel_flatten hcompiled⟩
      refine ⟨fun fault => ?_, fun _ => ⟨groups, hgroups, hpaths⟩⟩
      rw [← hmissing, hfound, hpaths]
      simp

/-- A directory, a file in it and a directory in it.  In the order of names `a/b.blade.php` comes
before `a.blade.php`; the image between them is not selected. -/
theorem compilePaths_answers_overlapping :
    let d : Disk :=
      ⟨.directory [("v", .directory [("a.blade.php", .file (.text "@endallows")),
        ("a", .directory [("b.png", .file .binary), ("b.blade.php", .file (.text "x"))])])], []⟩
    let c : Compiler := ⟨[.authorization Preset.blade.dialect .allow], .default⟩
    let paths : List Text := ["v", "v/a/../a.blade.php", "./v/a"]
    d.root.files = [(["v", "a", "b.blade.php"].map String.toList, .text "x"),
      (["v", "a", "b.png"].map String.toList, .binary),
      (["v", "a.blade.php"].map String.toList, .text "@endallows")] ∧
    d.root.WellNamed ∧ (∀ path ∈ paths, c.TakesTexts d path) ∧
    (∀ fault, c.compilePaths d paths = .error fault ↔ ∃ before path after,
      paths = before ++ path :: after ∧ (∀ p ∈ before, d.holds p = true) ∧
        d.holds path = false ∧ fault = .missing path) ∧
    ∃ groups, List.Forall₂ (c.Answers d) paths groups ∧
      c.compilePaths d paths = .ok groups.flatten := by
  intro d c paths
  have hfiles : d.root.files = [(["v", "a", "b.blade.php"].map String.toList, .text "x"),
      (["v", "a", "b.png"].map String.toList, .binary),
      (["v", "a.blade.php"].map String.toList, .text "@endallows")] := by cbv
  have hroot : d.root.WellNamed := by
    refine .directory (by decide) (by decide) (List.forall_mem_singleton.mpr ?_)
    refine .directory (by decide) (by decide) (List.forall_mem_cons.mpr ⟨.file _, ?_⟩)
    refine List.forall_mem_singleton.mpr (.directory (by decide) (by decide) ?_)
    exact List.forall_mem_cons.mpr ⟨.file _, List.forall_mem_singleton.mpr (.file _)⟩
  have htexts : ∀ path ∈ paths, c.TakesTexts d path := by
    have htop : d.locate "v" = .ok (["v"].map String.toList) := by decide +kernel
    have hfile : d.locate "v/a/../a.blade.php" =
        .ok (["v", "a.blade.php"].map String.toList) := by decide +kernel
    have hinner : d.locate "./v/a" = .ok (["v", "a"].map String.toList) := by decide +kernel
    refine List.forall_mem_cons.mpr ⟨.of_files htop ?_, List.forall_mem_cons.mpr
      ⟨.of_files hfile ?_, List.forall_mem_singleton.mpr (.of_files hinner ?_)⟩⟩
    all_goals
      rw [hfiles]
      decide +kernel
  have hall : ∀ path ∈ paths, d.holds path = true := by decide +kernel
  have hpaths := compilePaths_answers .inOrder hroot htexts
  exact ⟨hfiles, hroot, htexts, hpaths.1, hpaths.2 hall⟩

end Compiler

end TemplateGuards
