import TemplateGuards.Text

/-!
The six fields of a dialect, as a record over any type: over texts it is a dialect, over
optional texts it is a set of overrides.

* `Field`: the fields, with the names that a configuration file gives them;
* `Fields.get`, `Fields.set`, `Fields.zipWith`: one operation for all six fields each;
* `Fields.ext_get`: two records that agree in every field are equal.
-/

namespace TemplateGuards

/-- The fields of a dialect. -/
inductive Field
  | preamble
  | openSimple
  | openComplex
  | close
  | user
  | auxSeparator
deriving DecidableEq, Repr

namespace Field

/-- Every field, in the order in which they are shown. -/
def all : List Field := [preamble, openSimple, openComplex, close, user, auxSeparator]

/-- The name of a field. -/
def name : Field → Text
  | preamble => "preamble"
  | openSimple => "open-simple"
  | openComplex => "open-complex"
  | close => "close"
  | user => "user"
  | auxSeparator => "aux-separator"

/-- The field with a name. -/
def ofName? (written : Text) : Option Field := all.find? fun f => f.name == written

theorem ofName?_name (f : Field) : ofName? f.name = some f := by cases f <;> decide

/-- A field found by a name has that name. -/
theorem name_of_ofName? {written : Text} {f : Field} (h : ofName? written = some f) :
    f.name = written := by
  simpa using List.find?_some h

end Field

/-- One value for each field of a dialect. -/
structure Fields (α : Type) where
  /-- Goes once before a template that has directives. -/
  preamble : α
  /-- Opens the conditional of a directive that has a policy alone. -/
  openSimple : α
  /-- Opens the conditional of a directive that has auxiliary arguments. -/
  openComplex : α
  /-- Closes a conditional. -/
  close : α
  /-- The expression for the user at hand. -/
  user : α
  /-- Joins auxiliary arguments. -/
  auxSeparator : α
deriving DecidableEq, Repr

namespace Fields

variable {α β γ : Type}

/-- The same value in every field. -/
def const (a : α) : Fields α := ⟨a, a, a, a, a, a⟩

/-- The value of a field. -/
def get (r : Fields α) : Field → α
  | .preamble => r.preamble
  | .openSimple => r.openSimple
  | .openComplex => r.openComplex
  | .close => r.close
  | .user => r.user
  | .auxSeparator => r.auxSeparator

/-- The record with another value in one field. -/
def set (r : Fields α) (f : Field) (a : α) : Fields α :=
  match f with
  | .preamble => { r with preamble := a }
  | .openSimple => { r with openSimple := a }
  | .openComplex => { r with openComplex := a }
  | .close => { r with close := a }
  | .user => { r with user := a }
  | .auxSeparator => { r with auxSeparator := a }

/-- Two records combined field by field. -/
def zipWith (op : α → β → γ) (r : Fields α) (s : Fields β) : Fields γ where
  preamble := op r.preamble s.preamble
  openSimple := op r.openSimple s.openSimple
  openComplex := op r.openComplex s.openComplex
  close := op r.close s.close
  user := op r.user s.user
  auxSeparator := op r.auxSeparator s.auxSeparator

/-- Two records that agree in every field are equal. -/
theorem ext_get {r s : Fields α} (h : ∀ f, r.get f = s.get f) : r = s := by
  cases r
  cases s
  have h1 := h .preamble
  have h2 := h .openSimple
  have h3 := h .openComplex
  have h4 := h .close
  have h5 := h .user
  have h6 := h .auxSeparator
  simp_all [get]

@[simp] theorem get_const (a : α) (f : Field) : (const a).get f = a := by cases f <;> rfl

@[simp] theorem get_zipWith (op : α → β → γ) (r : Fields α) (s : Fields β) (f : Field) :
    (zipWith op r s).get f = op (r.get f) (s.get f) := by
  cases f <;> rfl

theorem get_set (r : Fields α) (f g : Field) (a : α) :
    (r.set f a).get g = if g = f then a else r.get g := by
  cases f <;> cases g <;> rfl

end Fields

end TemplateGuards
