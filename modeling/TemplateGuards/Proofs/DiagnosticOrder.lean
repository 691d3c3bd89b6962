import TemplateGuards.Proofs.ContentReport
import TemplateGuards.Proofs.Location

/-!
The order of diagnostics.  The first field in which two diagnostics differ decides between them,
and two that differ in none are equal; so the order is total, and a list of diagnostics can be
sorted in one way only, in whatever order they are found.

* `Diagnostic.Precedes`: the order in words, `Diagnostic.compare_eq_lt_iff` that it is the order;
* `Diagnostic.eq_sort_of_perm`: a list in order is the sorted one;
* `Diagnostic.compare_lawful`: **a total order that agrees with equality**.
-/

namespace TemplateGuards

/-! ### Fields -/

lemma Position.eq_of_line {p q : Position} (hline : p.line = q.line)
    (hcolumn : p.column = q.column) : p = q := by
  cases p
  cases q
  cases hline
  cases hcolumn
  rfl

instance : Std.LawfulEqOrd Level where
  eq_of_compare {a b} := by cases a <;> cases b <;> decide

/-- A warning goes before an error. -/
lemma Level.compare_eq_lt_iff {a b : Level} :
    Ord.compare a b = .lt ↔ a = .warning ∧ b = .error := by
  cases a <;> cases b <;> decide

/-- One suggestion goes before another: none before any, and a text before a larger one. -/
inductive SuggestionBefore : Option Text → Option Text → Prop
  | absent (t : Text) : SuggestionBefore none (some t)
  | smaller {s t : Text} (h : Text.bytes s < Text.bytes t) : SuggestionBefore (some s) (some t)

namespace Diagnostic

lemma compareOptional_eq_lt_iff {a? b? : Option Text} :
    compareOptional a? b? = .lt ↔ SuggestionBefore a? b? := by
  cases a? with
  | none =>
      cases b? with
      | none => exact ⟨nofun, nofun⟩
      | some t => exact ⟨fun _ => .absent t, fun _ => rfl⟩
  | some s =>
      cases b? with
      | none => exact ⟨nofun, nofun⟩
      | some t =>
          rw [compareOptional, Text.compare_eq_lt_iff, ← Text.bytes_lt_bytes_iff]
          exact ⟨.smaller, fun | .smaller h => h⟩

/-! ### Diagnostics -/

/-- One diagnostic goes before another: up to some field they agree, and in that field it has the
position further up, the level of a warning against that of an error, the text that is smaller byte
by byte, or the suggestion that goes before. -/
inductive Precedes (a b : Diagnostic) : Prop
  | position (before : a.position.Before b.position)
  | level (position : a.position = b.position) (before : a.level = .warning ∧ b.level = .error)
  | code (position : a.position = b.position) (level : a.level = b.level)
      (before : Text.bytes a.code < Text.bytes b.code)
  | message (position : a.position = b.position) (level : a.level = b.level)
      (code : a.code = b.code) (before : Text.bytes a.message < Text.bytes b.message)
  | suggestion (position : a.position = b.position) (level : a.level = b.level)
      (code : a.code = b.code) (message : a.message = b.message)
      (before : SuggestionBefore a.suggestion? b.suggestion?)

/-- **The order in words.** -/
lemma compare_eq_lt_iff {a b : Diagnostic} : compare a b = .lt ↔ a.Precedes b := by
  simp only [compare, Ordering.then_eq_lt, Nat.compare_eq_lt, Level.compare_eq_lt_iff,
    Text.compare_eq_lt_iff, compareOptional_eq_lt_iff, Std.compare_eq_iff_eq,
    ← Text.bytes_lt_bytes_iff]
  constructor
  · rintro (h | ⟨hline, h | ⟨hcolumn, h⟩⟩)
    · exact .position (.inl h)
    · exact .position (.inr ⟨hline, h⟩)
    · have hposition : a.position = b.position := Position.eq_of_line hline hcolumn
      rcases h with h | ⟨hlevel, h | ⟨hcode, h | ⟨hmessage, h⟩⟩⟩
      · exact .level hposition h
      · exact .code hposition hlevel h
      · exact .message hposition hlevel hcode h
      · exact .suggestion hposition hlevel hcode hmessage h
  · rintro ((h | ⟨hline, h⟩) | ⟨hp, h⟩ | ⟨hp, hl, h⟩ | ⟨hp, hl, hc, h⟩ | ⟨hp, hl, hc, hm, h⟩)
    · exact .inl h
    · exact .inr ⟨hline, .inl h⟩
    · simp [hp, h]
    · simp [hp, hl, h]
    · simp [hp, hl, hc, h]
    · simp [hp, hl, hc, hm, h]

instance : Std.LawfulEqCmp compare where
  eq_of_compare {a b} h := by
    rw [compare, compareOptional_eq] at h
    simp only [Ordering.then_eq_eq, Std.compare_eq_iff_eq] at h
    obtain ⟨hline, hcolumn, hlevel, hcode, hmessage, hsuggestion⟩ := h
    have hposition := Position.eq_of_line hline hcolumn
    cases a
    cases b
    simp_all

lemma eq_of_isLE {a b : Diagnostic} (hab : (compare a b).isLE = true)
    (hba : (compare b a).isLE = true) : a = b :=
  Std.LawfulEqCmp.eq_of_compare (Std.OrientedCmp.isLE_antisymm hab hba)

/-- Diagnostics in order are what sorting makes of them in any order. -/
lemma eq_sort_of_perm {ds es : List Diagnostic} (hperm : ds.Perm es)
    (hordered : ds.Pairwise fun a b => (compare a b).isLE = true) : ds = sort es :=
  List.Perm.eq_of_pairwise (fun _ _ _ _ => eq_of_isLE) hordered (pairwise_sort es)
    (hperm.trans (perm_sort es).symm)

/-- Lists sort alike if and only if they have the same diagnostics, each as often. -/
lemma sort_eq_sort_iff {ds es : List Diagnostic} : sort ds = sort es ↔ ds.Perm es := by
  constructor
  · intro h
    exact (perm_sort ds).symm.trans (h ▸ perm_sort es)
  · intro h
    exact eq_sort_of_perm ((perm_sort ds).trans h) (pairwise_sort ds)

/-- **The order of diagnostics is total and agrees with equality.**  Two diagnostics compare as
equal if and only if they are the same in every field; comparing them the other way round gives the
reverse, and the order is transitive.  Line, column, level, code, message and suggestion decide in
turn, texts byte by byte, with warnings before errors and no suggestion before any.  So lists of
diagnostics sort to the same list if and only if they are permutations of each other. -/
theorem compare_lawful (a b c : Diagnostic) (ds es : List Diagnostic) :
    (compare a b = .eq ↔ a = b) ∧
    compare b a = (compare a b).swap ∧
    (compare a b = .lt → compare b c = .lt → compare a c = .lt) ∧
    ((compare a b).isLE = true → (compare b c).isLE = true → (compare a c).isLE = true) ∧
    (compare a b = .lt ↔ a.Precedes b) ∧
    (sort ds = sort es ↔ ds.Perm es) :=
  ⟨Std.LawfulEqCmp.compare_eq_iff_eq, Std.OrientedCmp.eq_swap, Std.TransCmp.lt_trans,
    Std.TransCmp.isLE_trans, compare_eq_lt_iff, sort_eq_sort_iff⟩

end Diagnostic

end TemplateGuards
