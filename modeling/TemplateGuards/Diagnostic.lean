import TemplateGuards.Directive.Fault
import TemplateGuards.Named

/-!
Diagnostics: what a report says of one place in a template.  They are ordered by line, column,
level with warnings first, code, message, and suggestion with an absent one first.

* `Diagnostic.ofFault`, `Diagnostic.ofNested`: the diagnostics of a fault and of a warning;
* `Diagnostic.compare`: the order, and `Diagnostic.sort` a list in that order.
-/

namespace TemplateGuards

/-- How severe a diagnostic is. -/
inductive Level
  /-- The template was compiled, but deserves a look. -/
  | warning
  /-- The template was not compiled. -/
  | error
deriving DecidableEq, Repr, Ord

instance : Named Level where
  all := [.warning, .error]
  name
    | .warning => "warning"
    | .error => "error"

/-- What a report says of one place in a template. -/
structure Diagnostic where
  position : Position
  level : Level
  code : Text
  message : Text
  suggestion? : Option Text
deriving DecidableEq, Repr

namespace Diagnostic

/-- The diagnostic of a fault. -/
def ofFault (f : Fault) : Diagnostic :=
  ⟨f.position, .error, Named.name f.code, f.message, f.suggestion?⟩

/-- The diagnostic of a nesting that is only warned of. -/
def ofNested (n : Nested) : Diagnostic :=
  ⟨n.position, .warning, Named.name Code.nestedDirective, n.message, none⟩

/-- Is the diagnostic an error? -/
def isError (d : Diagnostic) : Bool := d.level == .error

/-- The diagnostic on one line. -/
def toText (d : Diagnostic) : Text :=
  d.position.toText ++ ": " ++ d.message ++ " (" ++ d.code ++ ")"

/-! ### Order -/

/-- An absent text goes before a present one. -/
def compareOptional : Option Text → Option Text → Ordering
  | none, none => .eq
  | none, some _ => .lt
  | some _, none => .gt
  | some a, some b => Ord.compare a b

/-- The order of diagnostics. -/
def compare (a b : Diagnostic) : Ordering :=
  (Ord.compare a.position.line b.position.line).then <|
  (Ord.compare a.position.column b.position.column).then <|
  (Ord.compare a.level b.level).then <|
  (Ord.compare a.code b.code).then <|
  (Ord.compare a.message b.message).then <|
  compareOptional a.suggestion? b.suggestion?

instance : Ord Diagnostic := ⟨compare⟩

/-- The diagnostics in order. -/
def sort (ds : List Diagnostic) : List Diagnostic := ds.mergeSort fun a b => (compare a b).isLE

end Diagnostic

end TemplateGuards
