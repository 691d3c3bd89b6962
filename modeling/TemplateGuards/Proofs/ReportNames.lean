import Mathlib.Data.List.Forall2
import TemplateGuards.Proofs.Admission
import TemplateGuards.Proofs.Components
import TemplateGuards.Proofs.Delivery

/-!
The names under which templates are compiled.  Whatever paths a command line names, the report on
each template has a relative path made of names alone, at least one.

* `Tree.Named`: the names that the entries of a tree may have;
* `Report.HasPlace`: a report whose relative path consists of names;
* `hasPlace_of_compilePaths`, `hasPlace_of_reportsOn`: the reports of a compiler and of a run;
* `distinct_eq_ok_iff`: reports that are not written to one file.
-/

namespace TemplateGuards

open TemplateGuards.Path Disk

/-! ### The files of a tree -/

/-- Every name in the tree is one that an entry of a directory may have. -/
def Tree.Named (t : Tree) : Prop := ∀ file ∈ t.files, ∀ name ∈ file.1, IsName name

namespace Tree

lemma mem_files_directory {entries : List (Text × Tree)} {place : List Text} {content : Content} :
    (place, content) ∈ (directory entries).files ↔
      ∃ name below inner, (name, inner) ∈ filesOfEntries entries ∧ (below, content) ∈ inner ∧
        place = name :: below := by
  simp only [files, byName, List.mem_flatMap, List.mem_mergeSort, Prod.exists, List.mem_map,
    Prod.mk.injEq]
  constructor
  · rintro ⟨name, inner, hinner, below, c, hbelow, rfl, rfl⟩
    exact ⟨name, below, inner, hinner, hbelow, rfl⟩
  · rintro ⟨name, below, inner, hinner, hbelow, rfl⟩
    exact ⟨name, inner, hinner, below, content, hbelow, rfl, rfl⟩

lemma Named.file (content : Content) : (file content).Named := by
  rintro ⟨place, c⟩ h
  obtain ⟨rfl, rfl⟩ : place = [] ∧ c = content := by simpa [files] using h
  simp

lemma exists_of_mem_filesOfEntries {name : Text} {inner : List (List Text × Content)}
    {entries : List (Text × Tree)} (h : (name, inner) ∈ filesOfEntries entries) :
    ∃ t, (name, t) ∈ entries ∧ inner = t.files := by
  induction entries with
  | nil => simp [filesOfEntries] at h
  | cons e es ih =>
      rw [filesOfEntries, List.mem_cons] at h
      rcases h with h | h
      · obtain ⟨rfl, rfl⟩ := Prod.mk.inj h
        exact ⟨e.2, by simp, rfl⟩
      · obtain ⟨t, ht, rfl⟩ := ih h
        exact ⟨t, by simp [ht], rfl⟩

lemma Named.directory {entries : List (Text × Tree)}
    (h : ∀ e ∈ entries, IsName e.1 ∧ e.2.Named) : (directory entries).Named := by
  rintro ⟨place, content⟩ hmem name hname
  obtain ⟨n, below, inner, hinner, hbelow, rfl⟩ := mem_files_directory.mp hmem
  obtain ⟨t, ht, rfl⟩ := exists_of_mem_filesOfEntries hinner
  obtain ⟨hn, hnamed⟩ := h _ ht
  rcases List.mem_cons.mp hname with rfl | hname
  · exact hn
  · exact hnamed _ hbelow name hname

/-- The files of what stands at a place are files of the tree. -/
lemma mem_files_append {t inner : Tree} {place below : List Text} {content : Content}
    (h : t.get? place = some inner) (hmem : (below, content) ∈ inner.files) :
    (place ++ below, content) ∈ t.files := by
  induction place generalizing t with
  | nil =>
      obtain rfl : t = inner := by simpa [get?] using h
      exact hmem
  | cons n ns ih =>
      cases t with
      | file c => simp [get?] at h
      | directory entries =>
          cases hl : entries.lookup n with
          | none => simp [get?, hl] at h
          | some t' =>
              have hin : t'.get? ns = some inner := by simpa [get?, hl] using h
              exact mem_files_directory.mpr
                ⟨n, _, _, mem_filesOfEntries (lookup_mem hl), ih hin, rfl⟩

/-- A file below a directory has names that lead to it. -/
lemma isPlace_of_mem_files {t : Tree} (ht : t.Named) {above below : List Text}
    {entries : List (Text × Tree)} {content : Content}
    (h : t.get? above = some (directory entries))
    (hmem : (below, content) ∈ (directory entries).files) : IsPlace below where
  ne_nil := by
    obtain ⟨name, rest, -, -, -, rfl⟩ := mem_files_directory.mp hmem
    simp
  isName n hn := ht _ (mem_files_append h hmem) n (by simp [hn])

end Tree

/-! ### Paths below an output directory -/

/-- Is the segment the name of an entry? -/
def Path.isEntry (segment : Text) : Bool := !isIdle segment && segment != ['.', '.']

lemma Path.names_component? (segment : Text) :
    (component? segment).toList.filterMap Component.name? = [segment].filter isEntry := by
  rw [component?]
  split_ifs with hidle hup <;> simp_all [Component.name?, isEntry]

/-- The names among the components of a path are those among its segments. -/
lemma Path.names_components (path : Text) :
    (components path).filterMap Component.name? = (segments path).filter isEntry := by
  obtain ⟨first, rest, hpath⟩ := List.exists_cons_of_ne_nil (segments_ne_nil path)
  have hfirst : (firstComponent? path first).toList.filterMap Component.name? =
      [first].filter isEntry := by
    rw [firstComponent?]
    split_ifs with habs hcurrent
    · obtain ⟨_, -, heq⟩ := isAbsolute_iff.mp habs
      obtain rfl : first = [] := (List.cons.inj (hpath ▸ heq)).1
      rfl
    · obtain rfl : first = ['.'] := by simpa using hcurrent
      rfl
    · exact names_component? first
  have hrest : (rest.filterMap component?).filterMap Component.name? = rest.filter isEntry := by
    clear hpath hfirst
    induction rest with
    | nil => rfl
    | cons s rest ih =>
        have hone : [s].filterMap component? = (component? s).toList := by
          cases h : component? s <;> simp [h]
        rw [← List.singleton_append, List.filterMap_append, List.filterMap_append, ih,
          List.filter_append, hone, names_component? s]
  rw [components, hpath]
  simp only [List.filterMap_append, hfirst, hrest]
  rw [← List.filter_append, List.singleton_append]

/-- An explicit file has names below an output directory. -/
lemma Path.exists_isPlace_withinOutput {d : Disk} {path : Text} {c : Content}
    (h : d.tree? path = some (.file c)) :
    ∃ names, IsPlace names ∧ withinOutput path = ofNames names := by
  have hlocate : ∃ place, d.locate path = .ok place ∧ d.entryAt? place = some (.file c) := by
    rw [Disk.tree?] at h
    cases hl : d.locate path with
    | error fault => simp [hl] at h
    | ok place =>
        refine ⟨place, rfl, ?_⟩
        simp only [hl] at h
        rw [Disk.entryAt?, Tree.entryAt?, h]
        rfl
  obtain ⟨place, hl, hfile⟩ := hlocate
  obtain ⟨above, last, -, hpath, hname, -⟩ := segments_of_locate_file hl hfile
  refine ⟨(segments path).filter isEntry, ⟨?_, fun n hn => ?_⟩, ?_⟩
  · have hlast : isEntry last = true := by simp [isEntry, hname.not_idle, hname.ne_up]
    exact List.ne_nil_of_mem (List.mem_filter.mpr ⟨by rw [hpath]; simp, hlast⟩)
  · obtain ⟨hmem, hn⟩ := List.mem_filter.mp hn
    rw [isEntry, Bool.and_eq_true, Bool.not_eq_true', bne_iff_ne] at hn
    exact ⟨hn.1, hn.2, separator_not_mem hmem⟩
  · rw [withinOutput, names_components]

/-! ### The reports of a compiler -/

/-- The relative path of the report consists of these names. -/
structure Report.HasPlace (r : Report) (names : List Text) : Prop where
  isPlace : IsPlace names
  relativePath : r.relativePath = ofNames names

lemma Report.HasPlace.destination_eq {r : Report} {outDir : Text} {names : List Text}
    (h : r.HasPlace names) : r.destination outDir = Disk.destination outDir names := by
  rw [Report.destination, Disk.destination, h.relativePath]

/-- A list is read by `f` exactly when its elements are, one by one. -/
lemma mapM_eq_ok_iff {α β ε : Type} {f : α → Except ε β} {as : List α} {bs : List β} :
    as.mapM f = .ok bs ↔ List.Forall₂ (fun a b => f a = .ok b) as bs := by
  induction as generalizing bs with
  | nil => cases bs <;> simp [pure, Except.pure]
  | cons a as ih =>
      simp only [List.mapM_cons, bind_eq_ok_iff, ih, List.forall₂_cons_left_iff]
      constructor
      · rintro ⟨b, hb, rest, hrest, heq⟩
        exact ⟨b, rest, hb, hrest, (Except.ok.inj heq).symm⟩
      · rintro ⟨b, rest, hb, hrest, rfl⟩
        exact ⟨b, hb, rest, hrest, rfl⟩

/-- Tasks that are done side by side come to values exactly when each does, one by one. -/
lemma Race.collect_map_eq_ok_iff {α β ε : Type} {race : Race ε} {f : α → Except ε β}
    {as : List α} {bs : List β} :
    race.collect (as.map f) = .ok bs ↔ List.Forall₂ (fun a b => f a = .ok b) as bs := by
  rw [collect_eq_ok_iff, ← List.forall₂_eq_eq_eq, List.forall₂_map_left_iff,
    List.forall₂_map_right_iff]

lemma exists_of_mem_forall₂ {α β : Type} {R : α → β → Prop} {as : List α} {bs : List β}
    (h : List.Forall₂ R as bs) : ∀ b ∈ bs, ∃ a ∈ as, R a b := by
  induction h with
  | nil => simp
  | cons hab _ ih =>
      intro b hb
      rcases List.mem_cons.mp hb with rfl | hb
      · exact ⟨_, List.mem_cons_self, hab⟩
      · obtain ⟨a, ha, hR⟩ := ih b hb
        exact ⟨a, List.mem_cons_of_mem _ ha, hR⟩

/-- Every target of a compiler has names below an output directory. -/
lemma Compiler.exists_isPlace_of_mem_targets {c : Compiler} {d : Disk} {path : Text}
    {found : List Target} (hroot : d.root.Named) (h : c.targets d path = .ok found) :
    ∀ t ∈ found, ∃ names, IsPlace names ∧ t.relativePath = ofNames names := by
  intro t ht
  rw [targets] at h
  cases htree : d.tree? path with
  | none => simp [htree] at h
  | some inner =>
      cases inner with
      | file content =>
          obtain rfl : [⟨path, withinOutput path⟩] = found := by simpa [htree] using h
          obtain rfl : t = ⟨path, withinOutput path⟩ := by simpa using ht
          exact exists_isPlace_withinOutput htree
      | directory entries =>
          obtain rfl : c.targetsBelow path (.directory entries) = found := by
            simpa [htree] using h
          obtain ⟨⟨below, content⟩, hmem, hsome⟩ := List.mem_filterMap.mp ht
          have hget : ∃ place, d.root.get? place = some (.directory entries) := by
            rw [Disk.tree?] at htree
            cases hl : d.locate path with
            | error fault => simp [hl] at htree
            | ok place => exact ⟨place, by simpa [hl] using htree⟩
          obtain ⟨place, hget⟩ := hget
          have hbelow : IsPlace below := Tree.isPlace_of_mem_files hroot hget hmem
          refine ⟨below, hbelow, ?_⟩
          by_cases hsel : c.selects (Path.below path below) = true
          · obtain rfl : ⟨Path.below path below, ofNames below⟩ = t := by
              simpa [hsel, behind?_below path hbelow.isName] using hsome
            rfl
          · simp [hsel] at hsome

/-- The report on a target is that on what is read at its path. -/
lemma Compiler.compileTarget_eq_ok_iff {c : Compiler} {d : Disk} {t : Target} {r : Report} :
    c.compileTarget d t = .ok r ↔ ∃ content, d.read t.path = .ok content ∧
      { c.compileContent t.path content with relativePath := t.relativePath } = r := by
  rw [compileTarget]
  cases d.read t.path <;> simp

lemma Compiler.compileTarget_eq_error_iff {c : Compiler} {d : Disk} {t : Target}
    {fault : CompileFault} :
    c.compileTarget d t = .error fault ↔
      ∃ refusal, d.read t.path = .error refusal ∧ fault = .unreadable t.path refusal := by
  rw [compileTarget]
  cases d.read t.path <;> simp [eq_comm]

/-- The files that a list of paths stands for are those of its paths. -/
lemma Compiler.mem_flatten_targets_iff {c : Compiler} {d : Disk} {paths : List Text}
    {found : List (List Target)} (hfound : paths.mapM (c.targets d) = .ok found) {t : Target} :
    t ∈ found.flatten ↔
      ∃ given ∈ paths, ∃ targets, c.targets d given = .ok targets ∧ t ∈ targets := by
  have hall := mapM_eq_ok_iff.mp hfound
  rw [List.mem_flatten]
  constructor
  · rintro ⟨targets, hmem, ht⟩
    obtain ⟨given, hgiven, htargets⟩ := exists_of_mem_forall₂ hall targets hmem
    exact ⟨given, hgiven, targets, htargets, ht⟩
  · rintro ⟨given, hgiven, targets, htargets, ht⟩
    obtain ⟨targets', hmem, htargets'⟩ := exists_of_mem_forall₂ hall.flip given hgiven
    rw [htargets] at htargets'
    exact ⟨targets', hmem, Except.ok.inj htargets' ▸ ht⟩

/-- The reports on a list of paths are those on the files that the paths stand for, whatever the
race. -/
lemma Compiler.compilePaths_eq_ok_iff {c : Compiler} {d : Disk} {paths : List Text}
    {race : Race CompileFault} {reports : List Report} :
    c.compilePaths d paths race = .ok reports ↔ ∃ found, paths.mapM (c.targets d) = .ok found ∧
      List.Forall₂ (fun t r => c.compileTarget d t = .ok r) found.flatten reports := by
  simp only [compilePaths, bind_eq_ok_iff, Race.collect_map_eq_ok_iff]

/-- Every report of a compiler is the report on a target. -/
lemma Compiler.exists_of_mem_compilePaths {c : Compiler} {d : Disk} {paths : List Text}
    {race : Race CompileFault} {reports : List Report}
    (h : c.compilePaths d paths race = .ok reports) :
    ∀ r ∈ reports, ∃ path found t, c.targets d path = .ok found ∧ t ∈ found ∧
      c.compileTarget d t = .ok r := by
  intro r hr
  obtain ⟨groups, hfound, hreports⟩ := compilePaths_eq_ok_iff.mp h
  obtain ⟨t, ht, hcompile⟩ := exists_of_mem_forall₂ hreports r hr
  obtain ⟨path, -, found, htargets, ht⟩ := (mem_flatten_targets_iff hfound).mp ht
  exact ⟨path, found, t, htargets, ht, hcompile⟩

/-- **The reports of a compiler have names below an output directory.** -/
lemma Compiler.hasPlace_of_compilePaths {c : Compiler} {d : Disk} {paths : List Text}
    {race : Race CompileFault} {reports : List Report} (hroot : d.root.Named)
    (h : c.compilePaths d paths race = .ok reports) :
    ∀ r ∈ reports, ∃ names, r.HasPlace names := by
  intro r hr
  obtain ⟨path, found, t, htargets, ht, hcompile⟩ := exists_of_mem_compilePaths h r hr
  obtain ⟨names, hnames, hrel⟩ := exists_isPlace_of_mem_targets hroot htargets t ht
  obtain ⟨content, -, rfl⟩ := compileTarget_eq_ok_iff.mp hcompile
  exact ⟨names, hnames, hrel⟩

/-! ### The reports of a run -/

lemma isPlace_inputName : IsPlace [inputName] := ⟨by simp, by decide⟩

lemma mapError_eq_ok_iff {ε ε' α : Type} {x : Except ε α} {f : ε → ε'} {a : α} :
    x.mapError f = .ok a ↔ x = .ok a := by
  cases x <;> simp [Except.mapError]

lemma mapError_eq_error_iff {ε ε' α : Type} {x : Except ε α} {f : ε → ε'} {e' : ε'} :
    x.mapError f = .error e' ↔ ∃ e, x = .error e ∧ f e = e' := by
  cases x <;> simp [Except.mapError]

/-- What a run gathers is the report on its standard input, or those on its paths. -/
lemma gather_cases {w : World} {c : Compiler} {files : List Text} {race : Race CompileFault}
    {reports : List Report} (h : gather w c files race = .ok reports) :
    (∃ content, reports =
      [{ c.compileContent inputPath content with relativePath := inputName }]) ∨
    c.compilePaths w.disk files race = .ok reports := by
  rw [gather] at h
  split_ifs at h with hinput hmany
  · cases hw : w.input with
    | binary => simp [hw] at h
    | text content =>
        simp only [hw, Except.ok.injEq] at h
        exact .inl ⟨content, h.symm⟩
  · exact .inr (mapError_eq_ok_iff.mp h)

/-- A run gathers the same reports whatever the race. -/
lemma gather_of_race {w : World} {c : Compiler} {files : List Text} {race : Race CompileFault}
    {reports : List Report} (h : gather w c files race = .ok reports) (race' : Race CompileFault) :
    gather w c files race' = .ok reports := by
  rw [gather] at h ⊢
  split_ifs at h ⊢
  · exact h
  · rw [mapError_eq_ok_iff, Compiler.compilePaths_eq_ok_iff] at h ⊢
    exact h

lemma hasPlace_of_gather {w : World} {c : Compiler} {files : List Text}
    {race : Race CompileFault} {reports : List Report} (hroot : w.disk.root.Named)
    (h : gather w c files race = .ok reports) :
    ∀ r ∈ reports, ∃ names, r.HasPlace names := by
  obtain ⟨content, rfl⟩ | hpaths := gather_cases h
  · -- the standard input has the relative path that is its name
    intro r hr
    obtain rfl := List.mem_singleton.mp hr
    exact ⟨[inputName], isPlace_inputName, rfl⟩
  · exact Compiler.hasPlace_of_compilePaths hroot hpaths

/-- What a command line wants to see of a report leaves its path and its output. -/
lemma CommandLine.mem_select {line : CommandLine} {reports : List Report} {r : Report}
    (h : r ∈ line.select reports) :
    ∃ r₀ ∈ reports, r.relativePath = r₀.relativePath ∧ r.output? = r₀.output? := by
  rw [select] at h
  split_ifs at h
  · obtain ⟨r₀, hr₀, rfl⟩ := List.mem_map.mp h
    exact ⟨r₀, hr₀, rfl, rfl⟩
  · exact ⟨r, h, rfl, rfl⟩

/-- **The reports of a run have names below an output directory.** -/
lemma hasPlace_of_reportsOn {w : World} {line : CommandLine} {config : Config}
    {reports : List Report} (hroot : w.disk.root.Named)
    (h : reportsOn w line config = .ok reports) :
    ∀ r ∈ reports, ∃ names, r.HasPlace names := by
  intro r hr
  rw [reportsOn] at h
  cases hc : Compiler.ofConfig config with
  | error fault => simp [hc, Except.mapError, bind, Except.bind] at h
  | ok c =>
      cases hg : gather w c line.files with
      | error failure => simp [hc, hg, Except.mapError, bind, Except.bind] at h
      | ok found =>
          obtain rfl : line.select found = reports := by
            simpa [hc, hg, Except.mapError, bind, Except.bind, pure, Except.pure] using h
          obtain ⟨r₀, hr₀, hrel, -⟩ := CommandLine.mem_select hr
          obtain ⟨names, hnames, hrel₀⟩ := hasPlace_of_gather hroot hg r₀ hr₀
          exact ⟨names, hnames, hrel.trans hrel₀⟩

/-! ### Reports that are not written to one file -/

/-- The reports whose outputs are written. -/
def written (reports : List Report) : List Report :=
  reports.filter fun r => !r.isInput

lemma rival?_eq_none_iff {outDir : Text} {earlier : List Report} {r : Report} :
    rival? outDir earlier r = none ↔ ∀ e ∈ written earlier,
      components (e.destination outDir) ≠ components (r.destination outDir) := by
  simp [rival?, written]

lemma distinctFrom_eq_ok_iff {outDir : Text} {earlier reports : List Report} :
    distinctFrom outDir earlier reports = .ok () ↔
      (∀ e ∈ written earlier, ∀ r ∈ written reports,
        components (e.destination outDir) ≠ components (r.destination outDir)) ∧
      (written reports).Pairwise fun a b =>
        components (a.destination outDir) ≠ components (b.destination outDir) := by
  induction reports generalizing earlier with
  | nil => simp [distinctFrom, written]
  | cons r rest ih =>
      rw [distinctFrom]
      cases hinput : r.isInput with
      | true =>
          have hearlier : written (earlier ++ [r]) = written earlier := by simp [written, hinput]
          have hall : written (r :: rest) = written rest := by simp [written, hinput]
          simp only [if_true, ih, hearlier, hall]
      | false =>
          have hearlier : written (earlier ++ [r]) = written earlier ++ [r] := by
            simp [written, hinput]
          have hall : written (r :: rest) = r :: written rest := by simp [written, hinput]
          rw [if_neg Bool.false_ne_true]
          cases hrival : rival? outDir earlier r with
          | none =>
              have hfree := rival?_eq_none_iff.mp hrival
              simp only [ih, hearlier, hall, List.forall_mem_append, List.forall_mem_cons,
                List.pairwise_cons]
              constructor
              · rintro ⟨⟨hrest, hr, -⟩, hpairs⟩
                exact ⟨fun e he => ⟨hfree e he, hrest e he⟩, hr, hpairs⟩
              · rintro ⟨hrest, hr, hpairs⟩
                exact ⟨⟨fun e he => (hrest e he).2, hr, by simp⟩, hpairs⟩
          | some e =>
              simp only [reduceCtorEq, false_iff]
              rintro ⟨hfree, -⟩
              have hnone : rival? outDir earlier r = none :=
                rival?_eq_none_iff.mpr fun e he => hfree e he r (by simp [hall])
              simp [hrival] at hnone

/-- **No two reports are written to one file** when the check passes. -/
lemma distinct_eq_ok_iff {outDir : Text} {reports : List Report} :
    distinct outDir reports = .ok () ↔
      (written reports).Pairwise fun a b =>
        components (a.destination outDir) ≠ components (b.destination outDir) := by
  rw [distinct, distinctFrom_eq_ok_iff]
  simp [written]

end TemplateGuards
