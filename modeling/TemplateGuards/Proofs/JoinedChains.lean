import TemplateGuards.Proofs.ContentReport

/-!
Chains of extensions joined end to end.  Chains act on texts: no extensions at all leave a text as
it is, and joined chains act one after the other, the warnings of the first before those of the
second, up to the first extension that fails.

* `Compiled.before`: a compilation followed by one of the text that it leaves;
* `Extension.runAll_cons`, `Extension.runAll_append`: joined chains;
* `Extension.runAll_eq_error_iff`: where a chain fails, and under which name;
* `Extension.runAll_action`: all of it together.
-/

namespace TemplateGuards

/-- A compilation followed by one of the text that it leaves. -/
def Compiled.before (first rest : Compiled) : Compiled :=
  ⟨rest.text, first.warnings ++ rest.warnings⟩

namespace Compiled

@[simp] lemma text_unchanged (source : Text) : (unchanged source).text = source := rfl

@[simp] lemma text_before (first rest : Compiled) : (first.before rest).text = rest.text := rfl

lemma unchanged_before (source : Text) (c : Compiled) : (unchanged source).before c = c := rfl

lemma before_assoc (first second third : Compiled) :
    (first.before second).before third = first.before (second.before third) := by
  simp [before]

end Compiled

namespace Extension

/-- An extension in front of a chain ends it if it fails, and else goes before it. -/
lemma runAll_cons (e : Extension) (es : List Extension) (source : Text) :
    runAll (e :: es) source =
      ((e.run source).mapError fun fault => ⟨e.id, fault⟩).bind fun first =>
        (runAll es first.text).map first.before := by
  rw [runAll]
  cases e.run source with
  | error fault => rfl
  | ok first => exact bind_pure_comp first.before (runAll es first.text)

/-- A chain in front of another ends it if it fails, and else goes before it. -/
lemma runAll_append (xs ys : List Extension) (source : Text) :
    runAll (xs ++ ys) source =
      (runAll xs source).bind fun first => (runAll ys first.text).map first.before := by
  induction xs generalizing source with
  | nil =>
      simp only [List.nil_append, runAll, Except.bind, Compiled.text_unchanged]
      cases runAll ys source with
      | error e => rfl
      | ok c => simp [Except.map, Compiled.unchanged_before]
  | cons e xs ih =>
      rw [List.cons_append, runAll_cons, runAll_cons]
      cases e.run source with
      | error fault => rfl
      | ok first =>
          simp only [Except.mapError, Except.bind, ih]
          cases runAll xs first.text with
          | error e => rfl
          | ok second =>
              simp only [Except.map, Compiled.text_before]
              cases runAll ys second.text with
              | error e => rfl
              | ok third => simp [Compiled.before_assoc]

/-- A chain fails where its first extension fails, under the name of that one. -/
lemma runAll_eq_error_iff {chain : List Extension} {source : Text} {e : ExtensionFault} :
    runAll chain source = .error e ↔
      ∃ x : Extension, FailsFirst chain source x e.fault ∧ e.extension = x.id := by
  constructor
  · intro h
    rcases compiles_or_failsFirst chain source with ⟨output, warnings, compiles⟩ | ⟨x, fault, fails⟩
    · exact nomatch compiles.runAll.symm.trans h
    · obtain rfl : ⟨x.id, fault⟩ = e := Except.error.inj (fails.runAll.symm.trans h)
      exact ⟨x, fails, rfl⟩
  · rintro ⟨x, fails, hid⟩
    rw [fails.runAll, ← hid]

/-- **Chains act on texts.**  A chain joined from two runs the first; if that fails, the whole fails
in the same way, whatever the second is, and else the second runs on the text that the first left.
The warnings of the first come before those of the second.  No extensions at all are the identity,
and a function on texts neither fails nor warns.  A failure is that of the first extension that
fails, each before it having compiled what the one before left, and bears its name. -/
theorem runAll_action (xs ys : List Extension) (source : Text) :
    (runAll (xs ++ ys) source =
      match runAll xs source with
      | .error e => .error e
      | .ok first =>
        match runAll ys first.text with
        | .error e => .error e
        | .ok rest => .ok ⟨rest.text, first.warnings ++ rest.warnings⟩) ∧
    runAll [] source = .ok ⟨source, []⟩ ∧
    (∀ id transform, (textual id transform).run source = .ok ⟨transform source, []⟩) ∧
    ∀ e, runAll xs source = .error e ↔
      ∃ x : Extension, FailsFirst xs source x e.fault ∧ e.extension = x.id := by
  refine ⟨?_, rfl, fun _ _ => rfl, fun _ => runAll_eq_error_iff⟩
  rw [runAll_append]
  cases runAll xs source with
  | error e => rfl
  | ok first =>
      simp only [Except.bind]
      cases runAll ys first.text <;> rfl

end Extension

end TemplateGuards
