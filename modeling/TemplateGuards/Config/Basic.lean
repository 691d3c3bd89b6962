import TemplateGuards.Dialect.Overrides
import TemplateGuards.Directive.Fault
import TemplateGuards.Files.Pattern

/-!
Configurations.  What a configuration leaves unset it inherits from its base: the dialect, the
nesting policy and each override on its own, and each list of patterns where it is empty.

* `Config.default`, `Config.strict`: the built-in configurations;
* `Config.orBase`: a configuration on top of its base;
* `Config.resolveDialect`: the dialect in effect, if it is valid;
* `Config.isTemplate`, `Config.isIgnored`: what the patterns say of a path.
-/

namespace TemplateGuards

/-- A configuration. -/
structure Config where
  /-- The configuration that this one extends. -/
  base? : Option Text
  dialect? : Option Preset
  /-- Replacements for fields of the dialect. -/
  overrides : Overrides
  nesting? : Option Nesting
  /-- The patterns of the files that are templates. -/
  templateFiles : List Text
  /-- The patterns of the files that are left out. -/
  ignore : List Text
deriving DecidableEq, Repr

/-- A dialect that does not hold what it needs. -/
structure InvalidDialect where
  preset : Preset
  fault : DialectFault
deriving DecidableEq, Repr

/-- The sentences that report an invalid dialect, the outermost first. -/
def InvalidDialect.chain (e : InvalidDialect) : List Text :=
  ["Invalid '" ++ Named.name e.preset ++ "' dialect", e.fault.message]

namespace Config

/-! ### Built-in configurations -/

/-- The configuration where none is given. -/
def default : Config where
  base? := none
  dialect? := some .blade
  overrides := .empty
  nesting? := some .allow
  templateFiles := ["*.blade.php"]
  ignore := ["vendor/**", "node_modules/**", "storage/**", ".git/**"]

/-- The configuration that denies nesting. -/
def strict : Config := { default with nesting? := some .deny }

/-- The built-in configuration of a name. -/
def builtIn? (name : Text) : Option Config :=
  if name = "default" then some default
  else if name = "strict" then some strict
  else none

/-! ### Inheritance -/

/-- The first of two lists, or the second where the first is empty. -/
def orList (near far : List Text) : List Text := if near.isEmpty then far else near

/-- The configuration `near` on top of its base `far`. -/
def orBase (near far : Config) : Config where
  base? := near.base?
  dialect? := near.dialect?.or far.dialect?
  overrides := near.overrides.orBase far.overrides
  nesting? := near.nesting?.or far.nesting?
  templateFiles := orList near.templateFiles far.templateFiles
  ignore := orList near.ignore far.ignore

/-! ### What is in effect -/

/-- The nesting policy in effect. -/
def nesting (c : Config) : Nesting := c.nesting?.getD .allow

/-- The preset in effect. -/
def preset (c : Config) : Preset := c.dialect?.getD .blade

/-- The dialect in effect: the preset with the overrides in place. -/
def dialect (c : Config) : Dialect := c.overrides.apply c.preset.dialect

/-- The dialect in effect, if it is valid. -/
def resolveDialect (c : Config) : Except InvalidDialect Dialect :=
  match Dialect.check c.dialect with
  | .ok () => .ok c.dialect
  | .error fault => .error ⟨c.preset, fault⟩

/-- Is the file at the path a template? -/
def isTemplate (c : Config) (path : Text) : Bool :=
  c.templateFiles.any fun pattern => Pattern.foundAtEnd pattern path

/-- Is the file at the path left out? -/
def isIgnored (c : Config) (path : Text) : Bool :=
  c.ignore.any fun pattern => Pattern.foundIn pattern path

end Config

end TemplateGuards
