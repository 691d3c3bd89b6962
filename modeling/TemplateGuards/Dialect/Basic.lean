import TemplateGuards.Dialect.Fields
import TemplateGuards.Dialect.Placeholder
import TemplateGuards.Directive.Arguments
import TemplateGuards.Directive.Kind
import TemplateGuards.Named

/-!
Dialects: the host syntax that directives compile to.  A dialect has a template for each form of
opener, and both are filled with the method, the policy, the user and the auxiliary arguments.

* `Preset`: the built-in dialects;
* `Dialect.check`: does every template ask for what it needs;
* `Dialect.renderOpener`: the conditional that an opener becomes.
-/

namespace TemplateGuards

/-- The host syntax that directives compile to. -/
abbrev Dialect := Fields Text

/-- The built-in dialects. -/
inductive Preset
  /-- PHP for the Blade template engine. -/
  | blade
  /-- Pseudo syntax of no particular host. -/
  | neutral
deriving DecidableEq, Repr

instance : Named Preset where
  all := [.blade, .neutral]
  name
    | .blade => "blade"
    | .neutral => "neutral"

/-- The dialect of a preset. -/
def Preset.dialect : Preset → Dialect
  | .blade => {
      preamble := "<?php $enforcer = \\App::make(\"policies\"); ?>"
      openSimple :=
        "<?php if ($enforcer->\x7bmethod\x7d(\x7bpolicy\x7d, \x7buser\x7d) === true): ?>"
      openComplex :=
        "<?php if ($enforcer->\x7bmethod\x7d(\x7bpolicy\x7d, \x7buser\x7d, " ++
          "[\x7baux\x7d]) === true) : ?>"
      close := "<?php endif; ?>"
      user := "\\Auth::user()"
      auxSeparator := "," }
  | .neutral => {
      preamble := "LET enforcer = lookup(\"policies\")\n"
      openSimple := "IF enforcer.\x7bmethod\x7d(\x7bpolicy\x7d, \x7buser\x7d) == true THEN"
      openComplex :=
        "IF enforcer.\x7bmethod\x7d(\x7bpolicy\x7d, \x7buser\x7d, [\x7baux\x7d]) == true THEN"
      close := "END IF"
      user := "currentUser()"
      auxSeparator := ", " }

/-! ### Validity -/

/-- What can be wrong with a dialect. -/
inductive DialectFault
  /-- A template does not ask for something it has to say. -/
  | lacks (field : Field) (placeholder : Placeholder)
  /-- The text that closes a conditional is blank. -/
  | blankClose
deriving DecidableEq, Repr

/-- The sentence that reports the fault. -/
def DialectFault.message : DialectFault → Text
  | lacks field placeholder =>
    "Dialect template '" ++ field.name ++ "' must contain " ++ placeholder.token
  | blankClose => "Dialect template 'close' must not be empty"

namespace Dialect

/-- What each template has to ask for. -/
def required : List (Field × Placeholder) :=
  [(.openSimple, .method), (.openSimple, .policy), (.openSimple, .user),
   (.openComplex, .method), (.openComplex, .policy), (.openComplex, .user), (.openComplex, .aux)]

/-- Nothing, if every template asks for what it needs and a conditional is closed visibly; else
the first fault. -/
def check (d : Dialect) : Except DialectFault Unit :=
  match required.find? fun (field, p) => !Text.occurs p.token (d.get field) with
  | some (field, p) => .error (.lacks field p)
  | none => if Text.allBlank d.close then .error .blankClose else .ok ()

/-! ### Rendering -/

/-- The template for a form of arguments. -/
def template (d : Dialect) : Arguments → Text
  | .simple _ => d.openSimple
  | .complex .. => d.openComplex

/-- What each placeholder stands for in an opener. -/
def value (d : Dialect) (kind : Kind) (arguments : Arguments) : Placeholder → Text
  | .method => kind.name
  | .policy => arguments.policy
  | .user => d.user
  | .aux => d.auxSeparator.intercalate arguments.aux

/-- The conditional that an opener becomes. -/
def renderOpener (d : Dialect) (kind : Kind) (arguments : Arguments) : Text :=
  Placeholder.fill (d.value kind arguments) (d.template arguments)

end Dialect

end TemplateGuards
