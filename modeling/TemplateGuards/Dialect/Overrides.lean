import TemplateGuards.Dialect.Basic

/-!
Overrides: texts that replace fields of a dialect.  Overrides from nearer places go before those
from farther ones, field by field.

* `Overrides.setNamed`: set a field by the name a user gives it;
* `Overrides.orBase`: nearer overrides on top of farther ones;
* `Overrides.apply`: a dialect with the overrides in place;
* `Overrides.apply_orBase`: combined overrides act like the farther ones, then the nearer ones.
-/

namespace TemplateGuards

/-- For each field of a dialect a text to use instead, or none. -/
abbrev Overrides := Fields (Option Text)

/-- A field of a name that no dialect has. -/
structure UnknownField where
  name : Text
deriving DecidableEq, Repr

/-- The sentence that reports an unknown field. -/
def UnknownField.message (e : UnknownField) : Text := "Unknown dialect field '" ++ e.name ++ "'"

namespace Overrides

/-- No overrides at all. -/
def empty : Overrides := Fields.const none

/-- The overrides with a text for the field of that name. -/
def setNamed (o : Overrides) (name value : Text) : Except UnknownField Overrides :=
  match Field.ofName? name with
  | some field => .ok (o.set field (some value))
  | none => .error ⟨name⟩

/-- The overrides `near`, and those of `far` where `near` has none. -/
def orBase (near far : Overrides) : Overrides := Fields.zipWith (fun n f => n.or f) near far

/-- The dialect with the overrides in place. -/
def apply (o : Overrides) (d : Dialect) : Dialect := Fields.zipWith (fun v t => v.getD t) o d

/-- Combined overrides act like the farther ones, then the nearer ones. -/
theorem apply_orBase (near far : Overrides) (d : Dialect) :
    (near.orBase far).apply d = near.apply (far.apply d) := by
  refine Fields.ext_get fun f => ?_
  simp only [apply, orBase, Fields.get_zipWith]
  cases near.get f <;> simp

end Overrides

end TemplateGuards
