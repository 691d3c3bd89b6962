import TemplateGuards.Directive.Compile

/-!
Extensions: the steps of which the compilation of a template is made.  A chain of extensions
runs in order, each on the text that the one before it left, and the first that fails ends it.

* `Extension`: a name, and what a step makes of a text;
* `Extension.authorization`, `Extension.textual`: the directives of a dialect, and any function on
  texts;
* `Extension.runAll`: a chain of extensions on a template.
-/

namespace TemplateGuards

/-- A step of the compilation. -/
structure Extension where
  /-- The name under which its failures are reported. -/
  id : Text
  /-- The step on one text. -/
  run : Text → Except Fault Compiled

/-- A failure of one extension. -/
structure ExtensionFault where
  extension : Text
  fault : Fault
deriving DecidableEq, Repr

/-- The sentence that reports the failure. -/
def ExtensionFault.message (e : ExtensionFault) : Text :=
  "extension '" ++ e.extension ++ "' failed at " ++ e.fault.position.toText ++ ": " ++
    e.fault.message

namespace Extension

/-- The compilation of the authorization directives. -/
def authorization (dialect : Dialect) (nesting : Nesting) : Extension where
  id := "authorization"
  run := compile dialect nesting

/-- A function on texts under a name of its own; it never fails. -/
def textual (id : Text) (transform : Text → Text) : Extension where
  id
  run source := .ok (.unchanged (transform source))

/-- A chain of extensions on a text: the last text, and the warnings of all. -/
def runAll : List Extension → Text → Except ExtensionFault Compiled
  | [], source => .ok (.unchanged source)
  | e :: es, source =>
    match e.run source with
    | .error fault => .error ⟨e.id, fault⟩
    | .ok first => do
      let rest ← runAll es first.text
      return ⟨rest.text, first.warnings ++ rest.warnings⟩

end Extension

end TemplateGuards
