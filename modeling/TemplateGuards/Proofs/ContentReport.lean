import Mathlib.Tactic.Common
import TemplateGuards.Compiler
import TemplateGuards.Proofs.TextOrder

/-!
The report on one text.  A chain of extensions either runs to its end, each extension on the text
that the one before it left, or stops at the first extension that fails.  The report tells the two
apart in each of its fields alike, so that nothing that reads one field contradicts what reads
another.

* `Diagnostic.compare_eq`, `Diagnostic.pairwise_sort`: the order of diagnostics, and lists in it;
* `Extension.Compiles`, `Extension.FailsFirst`: the two ways in which a chain ends, and
  `Extension.compiles_or_failsFirst`, that it ends in one of them;
* `Report.Fails`, `Report.Succeeds`: what the report says in each case;
* `Report.output?_ofContent_eq_none_iff`: a missing output is an error;
* `Compiler.compileContent_outcome`: **the fields of a report agree**.
-/

namespace TemplateGuards

/-! ### The order of diagnostics -/

instance : Std.TransOrd Level where
  eq_swap := by rintro ⟨⟩ ⟨⟩ <;> rfl
  isLE_trans := by rintro ⟨⟩ ⟨⟩ ⟨⟩ <;> decide

namespace Diagnostic

lemma compareOptional_eq (a? b? : Option Text) : compareOptional a? b? = Ord.compare a? b? := by
  cases a? <;> cases b? <;> rfl

/-- The order of diagnostics is lexicographic in their fields. -/
lemma compare_eq :
    compare =
      compareLex (compareOn (·.position.line)) (compareLex (compareOn (·.position.column))
        (compareLex (compareOn level) (compareLex (compareOn code)
          (compareLex (compareOn message) (compareOn suggestion?))))) := by
  funext a b
  rw [compare, compareOptional_eq]
  rfl

instance : Std.TransCmp compare := by
  rw [compare_eq]
  infer_instance

/-- Sorted diagnostics do not decrease. -/
lemma pairwise_sort (ds : List Diagnostic) :
    (sort ds).Pairwise fun a b => (compare a b).isLE = true :=
  pairwise_mergeSort_isLE compare ds

lemma perm_sort (ds : List Diagnostic) : (sort ds).Perm ds :=
  List.mergeSort_perm ds _

@[simp] lemma isError_ofFault (fault : Fault) : (ofFault fault).isError = true := rfl

@[simp] lemma isError_ofNested (n : Nested) : (ofNested n).isError = false := rfl

end Diagnostic

/-! ### Chains -/

namespace Extension

/-- The extensions of a chain compile a text one after another, each what the one before it left;
the last text and the warnings of all are given. -/
inductive Compiles : List Extension → Text → Text → List Nested → Prop
  | nil (source : Text) : Compiles [] source source []
  | cons {e : Extension} {es : List Extension} {source output : Text} {first : Compiled}
      {warnings : List Nested} (run : e.run source = .ok first)
      (rest : Compiles es first.text output warnings) :
      Compiles (e :: es) source output (first.warnings ++ warnings)

/-- The extensions of a chain before `e` compile a text, and `e` fails with the fault on what they
left. -/
def FailsFirst (chain : List Extension) (source : Text) (e : Extension) (fault : Fault) : Prop :=
  ∃ before after text warnings, chain = before ++ e :: after ∧
    Compiles before source text warnings ∧ e.run text = .error fault

/-- A chain compiles a text as soon as its extensions do. -/
lemma Compiles.runAll {chain : List Extension} {source output : Text} {warnings : List Nested}
    (h : Compiles chain source output warnings) :
    Extension.runAll chain source = .ok ⟨output, warnings⟩ := by
  induction h with
  | nil => rfl
  | cons run _ ih =>
      rw [Extension.runAll, run]
      simp only [ih]
      rfl

/-- A chain fails as soon as one of its extensions does. -/
lemma FailsFirst.runAll {chain : List Extension} {source : Text} {e : Extension} {fault : Fault}
    (h : FailsFirst chain source e fault) :
    Extension.runAll chain source = .error ⟨e.id, fault⟩ := by
  obtain ⟨before, after, text, warnings, rfl, compiles, fails⟩ := h
  induction compiles with
  | nil => rw [List.nil_append, Extension.runAll, fails]
  | cons run _ ih =>
      rw [List.cons_append, Extension.runAll, run]
      simp only [ih fails]
      rfl

/-- A chain runs to its end or stops at the first extension that fails. -/
lemma compiles_or_failsFirst (chain : List Extension) (source : Text) :
    (∃ output warnings, Compiles chain source output warnings) ∨
      ∃ e fault, FailsFirst chain source e fault := by
  induction chain generalizing source with
  | nil => exact .inl ⟨source, [], .nil source⟩
  | cons e es ih =>
      cases run : e.run source with
      | error fault => exact .inr ⟨e, fault, [], es, source, [], rfl, .nil source, run⟩
      | ok first =>
          rcases ih first.text with ⟨output, warnings, rest⟩ | ⟨e', fault, h⟩
          · exact .inl ⟨output, _, .cons run rest⟩
          · obtain ⟨before, after, text, warnings, rfl, compiles, fails⟩ := h
            exact .inr ⟨e', fault, e :: before, after, text, _, rfl, .cons run compiles, fails⟩

end Extension

/-! ### Reports -/

/-- The report on a text on which an extension fails. -/
structure Report.Fails (r : Report) (fault : Fault) : Prop where
  noOutput : r.output? = none
  unchanged : r.changed = false
  diagnostics_eq : r.diagnostics = [.ofFault fault]

/-- The report on a text that a chain compiles. -/
structure Report.Succeeds (r : Report) (content output : Text) (warnings : List Nested) :
    Prop where
  output_eq : r.output? = some output
  changed_iff : r.changed = true ↔ output ≠ content
  /-- Each diagnostic warns of a nesting. -/
  warns : ∀ d ∈ r.diagnostics, d.level = .warning ∧ d.code = "nested-directive"
  /-- The diagnostics are those of the warnings, each as often as it is given. -/
  perm : r.diagnostics.Perm (warnings.map .ofNested)
  ordered : r.diagnostics.Pairwise fun a b => (a.compare b).isLE = true

namespace Report

lemma Fails.hasErrors {r : Report} {fault : Fault} (h : r.Fails fault) : r.hasErrors = true := by
  simp [Report.hasErrors, h.diagnostics_eq]

lemma Succeeds.hasErrors {r : Report} {content output : Text} {warnings : List Nested}
    (h : r.Succeeds content output warnings) : r.hasErrors = false := by
  rw [Report.hasErrors, h.perm.any_eq, List.any_map, List.any_eq_false]
  simp

/-- A chain that fails on a text makes a report that fails. -/
lemma fails_ofContent {chain : List Extension} {content : Text} {e : Extension} {fault : Fault}
    (path : Text) (h : Extension.FailsFirst chain content e fault) :
    (ofContent chain path content).Fails fault := by
  rw [ofContent, h.runAll]
  exact ⟨rfl, rfl, rfl⟩

/-- A chain that compiles a text makes a report that succeeds. -/
lemma succeeds_ofContent {chain : List Extension} {content output : Text}
    {warnings : List Nested} (path : Text)
    (h : Extension.Compiles chain content output warnings) :
    (ofContent chain path content).Succeeds content output warnings := by
  have perm := Diagnostic.perm_sort (warnings.map .ofNested)
  rw [ofContent, h.runAll]
  refine ⟨rfl, by simp, fun d hd => ?_, perm, Diagnostic.pairwise_sort _⟩
  obtain ⟨n, -, rfl⟩ := List.mem_map.mp (perm.subset hd)
  exact ⟨rfl, rfl⟩

/-- A text has no output if and only if its report has errors. -/
lemma output?_ofContent_eq_none_iff (chain : List Extension) (path content : Text) :
    (ofContent chain path content).output? = none ↔
      (ofContent chain path content).hasErrors = true := by
  rcases Extension.compiles_or_failsFirst chain content with
    ⟨output, warnings, h⟩ | ⟨e, fault, h⟩
  · have hr := succeeds_ofContent path h
    simp [hr.output_eq, hr.hasErrors]
  · have hr := fails_ofContent path h
    simp [hr.noOutput, hr.hasErrors]

end Report

/-- **The fields of a report agree.**  There is no output if and only if there is an error, and
then it is that of the first extension that fails and the only diagnostic.  Otherwise the output
is what the chain makes of the content, and the diagnostics are its warnings in order. -/
theorem Compiler.compileContent_outcome (c : Compiler) (path content : Text) :
    let r := c.compileContent path content
    (r.output? = none ↔ r.hasErrors = true) ∧
      (r.hasErrors = true ↔
        ∃ e fault, Extension.FailsFirst c.chain content e fault ∧
          r.diagnostics = [.ofFault fault] ∧ (Diagnostic.ofFault fault).level = .error) ∧
      (r.output? = none → r.changed = false) ∧
      ∀ output, r.output? = some output →
        ∃ warnings, Extension.Compiles c.chain content output warnings ∧
          r.Succeeds content output warnings := by
  intro r
  refine ⟨Report.output?_ofContent_eq_none_iff c.chain path content, ?_⟩
  rcases Extension.compiles_or_failsFirst c.chain content with
    ⟨output, warnings, h⟩ | ⟨e, fault, h⟩
  · have hr : r.Succeeds content output warnings := Report.succeeds_ofContent path h
    refine ⟨?_, fun absent => ?_, fun output' present => ⟨warnings, ?_⟩⟩
    · rw [hr.hasErrors]
      refine ⟨fun h => (Bool.false_ne_true h).elim, fun ⟨e, fault, fails, _⟩ => ?_⟩
      -- a chain cannot both run to its end and stop
      exact nomatch fails.runAll.symm.trans h.runAll
    · exact nomatch absent.symm.trans hr.output_eq
    · obtain rfl : output' = output := Option.some.inj (present.symm.trans hr.output_eq)
      exact ⟨h, hr⟩
  · have hr : r.Fails fault := Report.fails_ofContent path h
    refine ⟨?_, fun _ => hr.unchanged, fun output present => ?_⟩
    · exact ⟨fun _ => ⟨e, fault, h, hr.diagnostics_eq, rfl⟩, fun _ => hr.hasErrors⟩
    · exact nomatch present.symm.trans hr.noOutput

end TemplateGuards
