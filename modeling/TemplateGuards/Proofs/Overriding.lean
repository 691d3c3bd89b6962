import Mathlib.Data.List.Induction
import TemplateGuards.Dialect.Overrides

/-!
Overrides on top of one another.  With no overrides at all they form a monoid in which every
element is idempotent, and it acts on dialects; so layers of overrides may be combined in any
grouping before they are applied.  Fields that are set by name keep the last text that was given.

* `orBase_assoc`, `orBase_self`, `empty_orBase`, `orBase_empty`: the laws of combination;
* `foldl_orBase`, `apply_foldr_orBase`: layers of overrides;
* `setNamed_cases`: what a call does that sets a field by name;
* `get_foldl_afterSet`: what a sequence of calls leaves in a field;
* `Overrides.laws`: all of it together.
-/

namespace TemplateGuards

lemma Field.name_injective : Function.Injective Field.name := fun f g h =>
  Option.some.inj <| by rw [← ofName?_name f, h, ofName?_name g]

namespace Overrides

/-! ### Layers -/

lemma orBase_assoc (a b c : Overrides) : (a.orBase b).orBase c = a.orBase (b.orBase c) :=
  Fields.ext_get fun f => by simp [orBase, Option.or_assoc]

lemma orBase_self (a : Overrides) : a.orBase a = a := Fields.ext_get fun f => by simp [orBase]

lemma empty_orBase (a : Overrides) : empty.orBase a = a :=
  Fields.ext_get fun f => by simp [orBase, empty]

lemma orBase_empty (a : Overrides) : a.orBase empty = a :=
  Fields.ext_get fun f => by simp [orBase, empty]

lemma apply_empty (d : Dialect) : empty.apply d = d :=
  Fields.ext_get fun f => by simp [apply, empty]

/-- Layers on top of a last one, combined from the nearest on. -/
lemma foldl_orBase (layers : List Overrides) (o : Overrides) :
    layers.foldl orBase o = o.orBase (layers.foldr orBase empty) := by
  induction layers generalizing o with
  | nil => exact (orBase_empty o).symm
  | cons a layers ih => rw [List.foldl_cons, ih, orBase_assoc, List.foldr_cons]

/-- Combined layers act like the layers one by one, the farthest first. -/
lemma apply_foldr_orBase (layers : List Overrides) (d : Dialect) :
    (layers.foldr orBase empty).apply d = layers.foldr apply d := by
  induction layers with
  | nil => exact apply_empty d
  | cons a layers ih => rw [List.foldr_cons, apply_orBase, ih, List.foldr_cons]

/-! ### Fields set by name -/

/-- A call either sets the field of that name, or there is none and it is refused. -/
lemma setNamed_cases (o : Overrides) (name value : Text) :
    (∃ f : Field, f.name = name ∧ o.setNamed name value = .ok (o.set f (some value))) ∨
      (∀ f : Field, f.name ≠ name) ∧ o.setNamed name value = .error ⟨name⟩ := by
  rw [setNamed]
  cases h : Field.ofName? name with
  | some f => exact .inl ⟨f, Field.name_of_ofName? h, rfl⟩
  | none =>
      refine .inr ⟨?_, rfl⟩
      rintro f rfl
      simp [Field.ofName?_name] at h

/-- The overrides after a call, which are those before it where the call is refused. -/
def afterSet (o : Overrides) (call : Text × Text) : Overrides :=
  match o.setNamed call.1 call.2 with
  | .ok o' => o'
  | .error _ => o

/-- A call changes the field that it names, and nothing else. -/
lemma get_afterSet (o : Overrides) (call : Text × Text) (f : Field) :
    (o.afterSet call).get f = if call.1 = f.name then some call.2 else o.get f := by
  rw [afterSet]
  obtain ⟨g, hg, hset⟩ | ⟨hno, hset⟩ := setNamed_cases o call.1 call.2
  · simp only [hset, Fields.get_set]
    simp only [← hg, Field.name_injective.eq_iff, @eq_comm _ f]
  · simp only [hset, if_neg (hno f).symm]

/-- **A field after a sequence of calls** has the text of the last call that names it. -/
lemma get_foldl_afterSet (o : Overrides) (calls : List (Text × Text)) (f : Field) :
    (calls.foldl afterSet o).get f =
      ((calls.filter fun call => call.1 = f.name).getLast?.map Prod.snd).or (o.get f) := by
  induction calls using List.reverseRecOn with
  | nil => rfl
  | append_singleton calls call ih =>
      rw [List.foldl_append, List.foldl_cons, List.foldl_nil, get_afterSet, List.filter_append]
      by_cases h : call.1 = f.name
      · simp [h]
      · simp [h, ih]

/-- **The laws of overrides.**  Combination is associative and idempotent, with no overrides at all
on either side as its identity, and it acts on dialects: combined overrides act like the farther
ones and then the nearer ones, and layers combined from the nearest to the farthest act like the
layers one by one from the farthest to the nearest.  After any sequence of calls that set fields by
name, a field has the text of the last call naming it, or else what it had; a call with a name that
no field has is refused and changes nothing. -/
theorem laws (a b c : Overrides) (d : Dialect) (layers : List Overrides)
    (calls : List (Text × Text)) :
    (a.orBase b).orBase c = a.orBase (b.orBase c) ∧ a.orBase a = a ∧
    empty.orBase a = a ∧ a.orBase empty = a ∧
    (a.orBase b).apply d = a.apply (b.apply d) ∧
    (layers.foldl orBase empty).apply d = layers.reverse.foldl (fun d o => o.apply d) d ∧
    (∀ f, (calls.foldl afterSet a).get f =
      ((calls.filter fun call => call.1 = f.name).getLast?.map Prod.snd).or (a.get f)) ∧
    ∀ name value,
      (∃ f : Field, f.name = name ∧ a.setNamed name value = .ok (a.set f (some value))) ∨
        (∀ f : Field, f.name ≠ name) ∧ a.setNamed name value = .error ⟨name⟩ ∧
          a.afterSet (name, value) = a := by
  refine ⟨orBase_assoc a b c, orBase_self a, empty_orBase a, orBase_empty a, apply_orBase a b d,
    ?_, get_foldl_afterSet a calls, fun name value => ?_⟩
  · rw [foldl_orBase, empty_orBase, apply_foldr_orBase, List.foldl_reverse]
  · obtain hset | ⟨hno, hset⟩ := setNamed_cases a name value
    · exact .inl hset
    · exact .inr ⟨hno, hset, by simp only [afterSet, hset]⟩

end Overrides

end TemplateGuards
