import TemplateGuards.Text

/-!
Placeholders of a dialect's templates.  A template is filled in a single pass from left to right:
what a placeholder stands for is copied as it is, and any other text too, braces included.

* `Placeholder.read?`: the placeholder at the start of a text;
* `Placeholder.fill`: a template with every placeholder exchanged for its value.
-/

namespace TemplateGuards

/-- What a template may ask for. -/
inductive Placeholder
  /-- The enforcer's method. -/
  | method
  /-- The policy expression. -/
  | policy
  /-- The expression for the user at hand. -/
  | user
  /-- The auxiliary arguments, joined. -/
  | aux
deriving DecidableEq, Repr

namespace Placeholder

/-- Every placeholder. -/
def all : List Placeholder := [method, policy, user, aux]

/-- The name of a placeholder. -/
def name : Placeholder → Text
  | method => "method"
  | policy => "policy"
  | user => "user"
  | aux => "aux"

/-- A placeholder as it is written in a template: its name in braces. -/
def token (p : Placeholder) : Text := '\x7b' :: p.name ++ "\x7d"

/-- The placeholder at the start of a text. -/
def read? (s : Text) : Option Placeholder := all.find? fun p => p.token.isPrefixOf s

theorem token_prefix_of_read? {s : Text} {p : Placeholder} (h : read? s = some p) :
    p.token <+: s := by
  simpa using List.find?_some h

theorem length_token_pos (p : Placeholder) : 0 < p.token.length := by simp [token]

/-- The template with every placeholder exchanged for its value. -/
def fill (value : Placeholder → Text) (template : Text) : Text :=
  match read? template with
  | some p =>
    match template with
    | [] => []
    | _ :: cs => value p ++ fill value (cs.drop (p.token.length - 1))
  | none =>
    match template with
    | [] => []
    | c :: cs => c :: fill value cs
termination_by template.length
decreasing_by all_goals grind

end Placeholder

end TemplateGuards
