import TemplateGuards.Proofs.Opening

/-!
Races between files that cannot be read.  All that a race decides is which of these files a failure
names: whether a run fails before its first output, and what it makes of its files if it does not,
is the same in every race.

* `Compiler.Unread`: a fault that names a file which cannot be read, among those of some paths;
* `Compiler.exists_compilePaths_eq_error_iff`: each of these faults may be met, and no other;
* `Compiler.compilePaths_race`: two races on the same paths;
* `NamesUnread`, `opening_race`: **two races of a run up to its command**.
-/

namespace TemplateGuards

/-! ### Files that cannot be read -/

namespace Compiler

variable {c : Compiler} {d : Disk} {paths : List Text} {found : List (List Target)}
  {fault : CompileFault}

/-- Does the fault name a file that cannot be read, among those that the paths stand for? -/
inductive Unread (c : Compiler) (d : Disk) (paths : List Text) : CompileFault → Prop
  | target {path : Text} {targets : List Target} {t : Target} {refusal : FileFault}
      (hpath : path ∈ paths) (htargets : c.targets d path = .ok targets) (ht : t ∈ targets)
      (hrefused : d.read t.path = .error refusal) : Unread c d paths (.unreadable t.path refusal)

/-- **The faults that may be met** in some race, where every path names something: each of those
that name a file which cannot be read, and no other. -/
lemma exists_compilePaths_eq_error_iff (hfound : paths.mapM (c.targets d) = .ok found) :
    (∃ race, c.compilePaths d paths race = .error fault) ↔ c.Unread d paths fault := by
  have hcollect : ∀ race, c.compilePaths d paths race =
      race.collect (found.flatten.map (c.compileTarget d)) := fun race => by
    rw [compilePaths, hfound]
    rfl
  simp only [hcollect, Race.exists_collect_eq_error_iff, List.mem_map, compileTarget_eq_error_iff,
    mem_flatten_targets_iff hfound]
  constructor
  · rintro ⟨t, ⟨path, hpath, targets, htargets, ht⟩, refusal, hrefused, rfl⟩
    exact .target hpath htargets ht hrefused
  · rintro ⟨hpath, htargets, ht, hrefused⟩
    exact ⟨_, ⟨_, hpath, _, htargets, ht⟩, _, hrefused, rfl⟩

/-- **Two races on the same paths** come to the same, or each to a file that cannot be read. -/
lemma compilePaths_race (c : Compiler) (d : Disk) (paths : List Text)
    (race race' : Race CompileFault) :
    c.compilePaths d paths race = c.compilePaths d paths race' ∨
      ∃ fault fault', c.Unread d paths fault ∧ c.Unread d paths fault' ∧
        c.compilePaths d paths race = .error fault ∧
        c.compilePaths d paths race' = .error fault' := by
  cases hfound : paths.mapM (c.targets d) with
  | error fault =>
      rw [compilePaths, compilePaths, hfound]
      exact .inl rfl
  | ok found =>
      -- where one of the races has reports, so has the other
      cases h : c.compilePaths d paths race with
      | ok reports => exact .inl (compilePaths_eq_ok_iff.mpr (compilePaths_eq_ok_iff.mp h)).symm
      | error fault =>
          cases h' : c.compilePaths d paths race' with
          | ok reports =>
              rw [compilePaths_eq_ok_iff.mpr (compilePaths_eq_ok_iff.mp h')] at h
              cases h
          | error fault' =>
              have hunread := (exists_compilePaths_eq_error_iff hfound).mp ⟨race, h⟩
              have hunread' := (exists_compilePaths_eq_error_iff hfound).mp ⟨race', h'⟩
              exact .inr ⟨fault, fault', hunread, hunread', rfl, rfl⟩

end Compiler

/-! ### Runs -/

variable {w : World} {line : CommandLine} {failure : Failure}

/-- Does the failure name a file that cannot be read, among those of the command line? -/
def NamesUnread (w : World) (line : CommandLine) (failure : Failure) : Prop :=
  ∃ config c fault, configure w line = .ok config ∧ Compiler.ofConfig config = .ok c ∧
    c.Unread w.disk line.files fault ∧ failure = .compiling fault

lemma NamesUnread.not_isDelivery (h : NamesUnread w line failure) :
    failure.isDelivery = false := by
  obtain ⟨_, _, _, -, -, -, rfl⟩ := h
  rfl

/-- Two races gather the same, or each comes to a file that cannot be read. -/
lemma gather_race (w : World) (c : Compiler) (files : List Text)
    (race race' : Race CompileFault) :
    gather w c files race = gather w c files race' ∨
      ∃ fault fault', c.Unread w.disk files fault ∧ c.Unread w.disk files fault' ∧
        gather w c files race = .error (.compiling fault) ∧
        gather w c files race' = .error (.compiling fault') := by
  rw [gather, gather]
  split_ifs
  · exact .inl rfl
  · exact .inl rfl
  obtain hsame | ⟨fault, fault', hunread, hunread', h, h'⟩ :=
    c.compilePaths_race w.disk files race race'
  · rw [hsame]
    exact .inl rfl
  · rw [h, h']
    exact .inr ⟨fault, fault', hunread, hunread', rfl, rfl⟩

/-- **Two races of a run up to its command** come to the same, or to two failures that each name a
file which cannot be read. -/
lemma opening_race (w : World) (line : CommandLine) (race race' : Race CompileFault) :
    opening w line race = opening w line race' ∨
      ∃ failure failure', NamesUnread w line failure ∧ NamesUnread w line failure' ∧
        opening w line race = .error (failing ⟨[], w.disk⟩ failure) ∧
        opening w line race' = .error (failing ⟨[], w.disk⟩ failure') := by
  rw [opening, opening]
  cases hconfig : configure w line with
  | error failure => exact .inl rfl
  | ok config =>
      cases line.showConfig with
      | true => exact .inl rfl
      | false =>
          simp only [Bool.false_eq_true, if_false]
          cases hcompiler : Compiler.ofConfig config with
          | error fault =>
              rw [gatherWith, gatherWith, hcompiler]
              exact .inl rfl
          | ok c =>
              rw [gatherWith_eq hcompiler, gatherWith_eq hcompiler]
              obtain hsame | ⟨fault, fault', hunread, hunread', h, h'⟩ :=
                gather_race w c line.files race race'
              · rw [hsame]
                exact .inl rfl
              · rw [h, h']
                exact .inr ⟨_, _, ⟨config, c, fault, hconfig, hcompiler, hunread, rfl⟩,
                  ⟨config, c, fault', hconfig, hcompiler, hunread', rfl⟩, rfl, rfl⟩

end TemplateGuards
