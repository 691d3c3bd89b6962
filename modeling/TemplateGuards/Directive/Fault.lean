import TemplateGuards.Directive.Kind
import TemplateGuards.Named
import TemplateGuards.Text.Position

/-!
What can be wrong with the directives of a template.  A `Fault` stops the compilation of the
template; a `Nested` says that one directive lies inside another of its own kind, which is a
fault or only a warning as the nesting policy decides.

* `Nesting`: the nesting policy;
* `Code`: the stable codes under which findings are reported, each with a short description;
* `Fault.position`, `Fault.code`, `Fault.message`, `Fault.suggestion?`: what a report shows.
-/

namespace TemplateGuards

/-! ### Nesting -/

/-- What becomes of a directive inside an open directive of its own kind. -/
inductive Nesting
  /-- It is compiled like any other. -/
  | allow
  /-- It is compiled, and a warning is given. -/
  | warn
  /-- The template is refused. -/
  | deny
deriving DecidableEq, Repr

instance : Named Nesting where
  all := [.allow, .warn, .deny]
  name
    | .allow => "allow"
    | .warn => "warn"
    | .deny => "deny"

instance : Inhabited Nesting := ⟨.allow⟩

/-- A directive inside an open directive of the same kind. -/
structure Nested where
  kind : Kind
  /-- The inner directive. -/
  position : Position
  /-- The innermost enclosing directive of the same kind. -/
  outer : Position
deriving DecidableEq, Repr

namespace Nested

/-- The sentence that reports the nesting. -/
def message (n : Nested) : Text :=
  "@" ++ n.kind.name ++ " is nested inside @" ++ n.kind.name ++ " opened at " ++ n.outer.toText

end Nested

/-! ### Codes -/

/-- The kinds of finding. -/
inductive Code
  | unterminatedDirective
  | emptyPolicy
  | emptyArgument
  | unexpectedEnd
  | mismatchedEnd
  | unclosedDirective
  | nestedDirective
deriving DecidableEq, Repr

instance : Named Code where
  all := [.unterminatedDirective, .emptyPolicy, .emptyArgument, .unexpectedEnd, .mismatchedEnd,
    .unclosedDirective, .nestedDirective]
  name
    | .unterminatedDirective => "unterminated-directive"
    | .emptyPolicy => "empty-policy"
    | .emptyArgument => "empty-argument"
    | .unexpectedEnd => "unexpected-end"
    | .mismatchedEnd => "mismatched-end"
    | .unclosedDirective => "unclosed-directive"
    | .nestedDirective => "nested-directive"

namespace Code

/-- What a finding of this kind is about. -/
def description : Code → Text
  | unterminatedDirective => "An @allows/@denies opener has no balancing closing parenthesis"
  | emptyPolicy => "A directive has no policy expression"
  | emptyArgument => "A directive's argument list contains an empty entry"
  | unexpectedEnd => "An @endallows/@enddenies marker has no open directive"
  | mismatchedEnd => "An end marker closes a directive of the other type"
  | unclosedDirective => "A directive is still open at the end of the template"
  | nestedDirective => "A directive is nested inside another of the same type"

end Code

/-! ### Faults -/

/-- A malformed use of directives. -/
inductive Fault
  /-- No parenthesis balances the one of an opener. -/
  | unterminated (kind : Kind) (position : Position)
  /-- An opener has no policy expression. -/
  | emptyPolicy (kind : Kind) (position : Position)
  /-- An entry after the policy expression is empty; the policy has index 0. -/
  | emptyArgument (kind : Kind) (index : Nat) (position : Position)
  /-- An end marker where no directive is open. -/
  | unexpectedEnd (kind : Kind) (position : Position)
  /-- An end marker of the other kind than the innermost open directive. -/
  | mismatchedEnd (expected found : Kind) (opened position : Position)
  /-- A directive that is still open at the end of the template. -/
  | unclosed (kind : Kind) (position : Position)
  /-- A directive inside an open one of its kind, where the policy denies nesting. -/
  | nested (nested : Nested)
deriving DecidableEq, Repr

namespace Fault

/-- The position of the marker at fault. -/
def position : Fault → Position
  | unterminated _ p => p
  | emptyPolicy _ p => p
  | emptyArgument _ _ p => p
  | unexpectedEnd _ p => p
  | mismatchedEnd _ _ _ p => p
  | unclosed _ p => p
  | nested n => n.position

/-- The code under which the fault is reported. -/
def code : Fault → Code
  | unterminated .. => .unterminatedDirective
  | emptyPolicy .. => .emptyPolicy
  | emptyArgument .. => .emptyArgument
  | unexpectedEnd .. => .unexpectedEnd
  | mismatchedEnd .. => .mismatchedEnd
  | unclosed .. => .unclosedDirective
  | nested .. => .nestedDirective

/-- The sentence that reports the fault. -/
def message : Fault → Text
  | unterminated kind _ => "@" ++ kind.name ++ " is missing its closing parenthesis"
  | emptyPolicy kind _ => "@" ++ kind.name ++ " has no policy expression"
  | emptyArgument kind index _ =>
    "@" ++ kind.name ++ " has an empty argument at index " ++ Text.ofNat index
  | unexpectedEnd kind _ => "@end" ++ kind.name ++ " has no matching @" ++ kind.name
  | mismatchedEnd expected found opened _ =>
    "@end" ++ found.name ++ " cannot close @" ++ expected.name ++ " opened at " ++ opened.toText
  | unclosed kind _ => "@" ++ kind.name ++ " is never closed by @end" ++ kind.name
  | nested n => n.message

/-- How to mend the template, where that is obvious. -/
def suggestion? : Fault → Option Text
  | unclosed kind _ => some ("Add @end" ++ kind.name ++ " after the guarded block")
  | mismatchedEnd expected _ _ _ => some ("Close the inner block with @end" ++ expected.name)
  | unterminated .. =>
    some "Check for unbalanced parentheses or an unclosed string literal"
  | _ => none

end Fault

end TemplateGuards
