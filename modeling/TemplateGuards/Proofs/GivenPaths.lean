import TemplateGuards.CommandLine.Reader
import TemplateGuards.Proofs.Admission

/-!
The paths of a command line.  An empty path is refused wherever one is read, so a command line that
means something names none.

* `Given.NoEmptyPath`: what has been given names no empty path;
* `NoEmptyPath.addSetting`, `NoEmptyPath.addFile`: one more value or file;
* `Scope.noEmptyPath_of_read`: the words of a scope;
* `CommandLine.outDir_ne_nil`: the output directory of a command line.
-/

namespace TemplateGuards

/-- What is thrown is no success. -/
@[simp] lemma throw_ne_ok {ε α : Type} {e : ε} {a : α} : (throw e : Except ε α) ≠ .ok a := nofun

/-- What comes after a refusal that has been passed by. -/
lemma eq_ok_of_guard {ε α : Type} {refused : Bool} {e : ε} {next : Unit → Except ε α} {a : α}
    (h : (if refused = true then throw e >>= next else next ()) = .ok a) : next () = .ok a := by
  cases refused with
  | true => exact absurd h throw_ne_ok
  | false => exact h

/-- What has been given names no empty path. -/
structure Given.NoEmptyPath (g : Given) : Prop where
  files : [] ∉ g.files
  config : g.config? ≠ some []
  outDir : g.outDir? ≠ some []

namespace Given.NoEmptyPath

variable {g g' : Given}

lemma nothing : Given.nothing.NoEmptyPath := ⟨by simp [Given.nothing], nofun, nofun⟩

lemma addFlag {flag : Flag} (h : g.NoEmptyPath) (hg : g.addFlag flag = .ok g') :
    g'.NoEmptyPath := by
  rw [Given.addFlag] at hg
  split_ifs at hg
  obtain rfl := Except.ok.inj hg
  exact ⟨h.files, h.config, h.outDir⟩

lemma addFile {file : Text} (h : g.NoEmptyPath) (hg : g.addFile file = .ok g') :
    g'.NoEmptyPath := by
  rw [Given.addFile] at hg
  split_ifs at hg with hfile
  obtain rfl := Except.ok.inj hg
  refine ⟨?_, h.config, h.outDir⟩
  rw [List.isEmpty_iff] at hfile
  simp [h.files, Ne.symm hfile]

lemma readPath_ne {written : Text} {path? : Option Text} (h : readPath written = .ok path?) :
    path? ≠ some [] := by
  rw [readPath] at h
  split_ifs at h with hwritten
  obtain rfl := Except.ok.inj h
  simpa using hwritten

lemma addSetting {setting : Setting} {value : Text} (h : g.NoEmptyPath)
    (hg : g.addSetting setting value = .ok g') : g'.NoEmptyPath := by
  cases setting with
  | set =>
      obtain rfl := Except.ok.inj hg
      exact ⟨h.files, h.config, h.outDir⟩
  | config =>
      rw [Given.addSetting] at hg
      have hg := eq_ok_of_guard hg
      simp only [bind_eq_ok_iff] at hg
      obtain ⟨path?, hpath, hg⟩ := hg
      obtain rfl := Except.ok.inj hg
      exact ⟨h.files, readPath_ne hpath, h.outDir⟩
  | outDir =>
      rw [Given.addSetting] at hg
      have hg := eq_ok_of_guard hg
      simp only [bind_eq_ok_iff] at hg
      obtain ⟨path?, hpath, hg⟩ := hg
      obtain rfl := Except.ok.inj hg
      exact ⟨h.files, h.config, readPath_ne hpath⟩
  | _ =>
      rw [Given.addSetting] at hg
      have hg := eq_ok_of_guard hg
      simp only [bind_eq_ok_iff] at hg
      obtain ⟨value?, -, hg⟩ := hg
      obtain rfl := Except.ok.inj hg
      exact ⟨h.files, h.config, h.outDir⟩

end Given.NoEmptyPath

/-! ### Progress -/

namespace Progress

variable {p p' : Progress}

lemma noEmptyPath_of_settle {g : Given} (h : p.given.NoEmptyPath) (hp : p.settle = .ok g) :
    g.NoEmptyPath := by
  rw [settle] at hp
  split at hp
  · exact h.addSetting hp
  · exact Except.ok.inj hp ▸ h

lemma noEmptyPath_of_raise {flag : Flag} (h : p.given.NoEmptyPath) (hp : p.raise flag = .ok p') :
    p'.given.NoEmptyPath := by
  obtain ⟨g, hg, hp⟩ := bind_eq_ok_iff.mp hp
  obtain ⟨g', hg', hp⟩ := bind_eq_ok_iff.mp hp
  obtain rfl := Except.ok.inj hp
  exact (noEmptyPath_of_settle h hg).addFlag hg'

lemma noEmptyPath_of_addFile {file : Text} (h : p.given.NoEmptyPath)
    (hp : p.addFile file = .ok p') : p'.given.NoEmptyPath := by
  obtain ⟨g, hg, hp⟩ := bind_eq_ok_iff.mp hp
  obtain ⟨g', hg', hp⟩ := bind_eq_ok_iff.mp hp
  obtain rfl := Except.ok.inj hp
  exact (noEmptyPath_of_settle h hg).addFile hg'

lemma noEmptyPath_of_addJoined {setting : Setting} {value : Text} (h : p.given.NoEmptyPath)
    (hp : p.addJoined setting value = .ok p') : p'.given.NoEmptyPath := by
  obtain ⟨g, hg, hp⟩ := bind_eq_ok_iff.mp hp
  obtain ⟨g', hg', hp⟩ := bind_eq_ok_iff.mp hp
  obtain rfl := Except.ok.inj hp
  exact (noEmptyPath_of_settle h hg).addSetting hg'

lemma noEmptyPath_of_addSeparate {setting : Setting} {value : Text} (h : p.given.NoEmptyPath)
    (hp : p.addSeparate setting value = .ok p') : p'.given.NoEmptyPath := by
  obtain ⟨g, hg, hp⟩ := bind_eq_ok_iff.mp hp
  obtain rfl := Except.ok.inj hp
  exact noEmptyPath_of_settle h hg

end Progress

/-! ### Words -/

namespace Scope

variable {scope : Scope} {p : Progress}

lemma noEmptyPath_of_readCluster {written : Text} {c : Cluster} (h : p.given.NoEmptyPath)
    (hc : scope.readCluster p written = .ok c) : c.progress.given.NoEmptyPath := by
  induction written generalizing p with
  | nil => exact Except.ok.inj hc ▸ h
  | cons short rest ih =>
      rw [readCluster] at hc
      split at hc
      · simp at hc
      · obtain ⟨_, -, hc⟩ := bind_eq_ok_iff.mp hc
        exact absurd hc throw_ne_ok
      · obtain ⟨_, -, hc⟩ := bind_eq_ok_iff.mp hc
        exact absurd hc throw_ne_ok
      · obtain ⟨p', hp', hc⟩ := bind_eq_ok_iff.mp hc
        exact ih (Progress.noEmptyPath_of_raise h hp') hc
      · split at hc
        · exact Except.ok.inj hc ▸ h
        all_goals
          obtain ⟨p', hp', hc⟩ := bind_eq_ok_iff.mp hc
          obtain rfl := Except.ok.inj hc
          exact Progress.noEmptyPath_of_addJoined h hp'

lemma noEmptyPath_of_readLong {written : Text} {c : Cluster} (h : p.given.NoEmptyPath)
    (hc : scope.readLong p written = .ok c) : c.progress.given.NoEmptyPath := by
  simp only [readLong] at hc
  split at hc
  · obtain ⟨p', hp', hc⟩ := bind_eq_ok_iff.mp hc
    obtain rfl := Except.ok.inj hc
    exact Progress.noEmptyPath_of_addJoined h hp'
  · exact Except.ok.inj hc ▸ h
  · obtain ⟨p', hp', hc⟩ := bind_eq_ok_iff.mp hc
    obtain rfl := Except.ok.inj hc
    exact Progress.noEmptyPath_of_raise h hp'
  · obtain ⟨_, -, hc⟩ := bind_eq_ok_iff.mp hc
    exact absurd hc throw_ne_ok
  · obtain ⟨_, -, hc⟩ := bind_eq_ok_iff.mp hc
    exact absurd hc throw_ne_ok
  · simp at hc

lemma noEmptyPath_of_addFile {file : Text} {p' : Progress} (h : p.given.NoEmptyPath)
    (hp : scope.addFile p file = .ok p') : p'.given.NoEmptyPath := by
  cases scope with
  | codes => simp [addFile] at hp
  | _ => exact Progress.noEmptyPath_of_addFile h hp

lemma noEmptyPath_of_foldlM {files : List Text} {p' : Progress} (h : p.given.NoEmptyPath)
    (hp : files.foldlM scope.addFile p = .ok p') : p'.given.NoEmptyPath := by
  induction files generalizing p with
  | nil => exact Except.ok.inj hp ▸ h
  | cons file files ih =>
      rw [List.foldlM_cons] at hp
      obtain ⟨p₁, hp₁, hp⟩ := bind_eq_ok_iff.mp hp
      exact ih (noEmptyPath_of_addFile h hp₁) hp

/-- **The words of a scope** name no empty path. -/
lemma noEmptyPath_of_read {words : List Text} {reading : Reading} (h : p.given.NoEmptyPath)
    (hr : scope.read p words = .ok reading) : reading.progress.given.NoEmptyPath := by
  -- an option and its value are two words read at once
  induction hn : words.length using Nat.strongRecOn generalizing p words with
  | _ n ih =>
    cases words with
    | nil => exact Except.ok.inj hr ▸ h
    | cons word rest =>
        rw [read] at hr
        split at hr
        · exact Except.ok.inj hr ▸ h
        · split_ifs at hr with hdashes hfile
          · obtain ⟨p', hp', hr⟩ := bind_eq_ok_iff.mp hr
            obtain rfl := Except.ok.inj hr
            exact noEmptyPath_of_foldlM h hp'
          · obtain ⟨p', hp', hr⟩ := bind_eq_ok_iff.mp hr
            exact ih rest.length (by simp [← hn]) (noEmptyPath_of_addFile h hp') hr rfl
          · -- an option, whose value may be the next word
            dsimp only at hr
            split at hr
            all_goals
              obtain ⟨c, hc, hr⟩ := bind_eq_ok_iff.mp hr
              have hcluster : c.progress.given.NoEmptyPath := by
                first
                | exact noEmptyPath_of_readLong h hc
                | exact noEmptyPath_of_readCluster h hc
              split at hr
              · exact ih rest.length (by simp [← hn]) hcluster hr rfl
              · cases rest with
                | nil => exact absurd hr throw_ne_ok
                | cons value rest =>
                    have hr := eq_ok_of_guard hr
                    obtain ⟨p', hp', hr⟩ := bind_eq_ok_iff.mp hr
                    exact ih rest.length (by simp only [← hn, List.length_cons]; omega)
                      (Progress.noEmptyPath_of_addSeparate hcluster hp') hr rfl

end Scope

/-! ### The output directory -/

/-- **The output directory of a command line** is not the empty path. -/
lemma CommandLine.outDir_ne_nil {words : List Text} {line : CommandLine} {outDir : Text}
    {dryRun : Bool} (h : CommandLine.read words = .ok line)
    (hcommand : line.command = .compile (some outDir) dryRun) : outDir ≠ [] := by
  rw [CommandLine.read] at h
  obtain ⟨top, htop, h⟩ := bind_eq_ok_iff.mp h
  split at h
  · obtain ⟨g, -, h⟩ := bind_eq_ok_iff.mp h
    obtain rfl := Except.ok.inj h
    simp [ofGiven] at hcommand
  · simp [throw, throwThe, MonadExceptOf.throw] at h
  · next scope rest _ =>
      obtain ⟨reading, hreading, h⟩ := bind_eq_ok_iff.mp h
      obtain ⟨inner, hinner, h⟩ := bind_eq_ok_iff.mp h
      obtain ⟨given, -, h⟩ := bind_eq_ok_iff.mp h
      have hnone : inner.NoEmptyPath :=
        Progress.noEmptyPath_of_settle
          (Scope.noEmptyPath_of_read Given.NoEmptyPath.nothing hreading) hinner
      cases scope with
      | compile =>
          obtain rfl := Except.ok.inj h
          rintro rfl
          simp only [ofGiven, Command.compile.injEq] at hcommand
          exact hnone.outDir hcommand.1
      | _ =>
          obtain rfl := Except.ok.inj h
          simp [ofGiven] at hcommand

end TemplateGuards
