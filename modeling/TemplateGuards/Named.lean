import TemplateGuards.Text

/-!
Types whose finitely many values are written by name, in a configuration file and on the command
line.

* `Named.read?`: the value with a name;
* `Named.readAnyCase?`: the same without regard to the case of ASCII letters.
-/

namespace TemplateGuards

/-- A type whose values have names. -/
class Named (α : Type) where
  /-- Every value. -/
  all : List α
  /-- The name of a value. -/
  name : α → Text

namespace Named

variable {α : Type} [Named α]

/-- The value with the name `written`. -/
def read? (written : Text) : Option α := (all : List α).find? fun a => name a == written

/-- The value with the name `written`, in capital or small ASCII letters. -/
def readAnyCase? (written : Text) : Option α :=
  (all : List α).find? fun a => (name a).map Char.toLower == written.map Char.toLower

/-- The sentence that refuses a name. -/
def refusal (written : Text) : Text := "invalid variant: " ++ written

end Named

end TemplateGuards
