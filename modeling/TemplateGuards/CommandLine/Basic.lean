import TemplateGuards.Config.Basic
import TemplateGuards.Report.Format
import TemplateGuards.Text.Blank

/-!
The command line: what is to be done, with which files, and what it says of the configuration and
of the output.

* `CommandLine`: the meaning of a command line;
* `CommandLine.overrides`: the dialect fields that it sets;
* `CommandLine.configure`: a configuration with what the command line says in place.
-/

namespace TemplateGuards

/-- What is to be done. -/
inductive Command
  /-- Report on templates. -/
  | check
  /-- Compile templates. -/
  | compile (outDir? : Option Text) (dryRun : Bool)
  /-- List the codes of diagnostics. -/
  | codes
deriving DecidableEq, Repr

/-- The meaning of a command line. -/
structure CommandLine where
  command : Command
  /-- The files and directories to work on. -/
  files : List Text
  /-- The configuration file. -/
  config? : Option Text
  format : Format
  dialect? : Option Preset
  nesting? : Option Nesting
  /-- Fields of the dialect, each with an equals sign and the text to use. -/
  settings : List Text
  /-- Are warnings left out? -/
  errorsOnly : Bool
  /-- Is the configuration to be shown and nothing else done? -/
  showConfig : Bool
  verbose : Bool
deriving DecidableEq, Repr

/-- A field that the command line sets and no dialect has. -/
structure SettingFault where
  field : Text
  fault : UnknownField
deriving DecidableEq, Repr

/-- The sentences that report the fault, the outermost first. -/
def SettingFault.chain (e : SettingFault) : List Text :=
  ["Invalid --set override '" ++ e.field ++ "'", e.fault.message]

/-- The field and the text of a setting: what stands before its first equals sign, trimmed, and
everything after that sign.  A setting without a field is none. -/
def readSetting? (written : Text) : Option (Text × Text) :=
  match Text.cut? '=' written with
  | none => none
  | some (before, value) =>
    let field := Text.trim before
    if field.isEmpty then none else some (field, value)

/-- The overrides with settings in place one after the other, up to the first of an unknown field,
which is given too. -/
def Overrides.withSettings (o : Overrides) : List (Text × Text) → Overrides × Option SettingFault
  | [] => (o, none)
  | (field, value) :: rest =>
    match o.setNamed field value with
    | .ok o' => withSettings o' rest
    | .error fault => (o, some ⟨field, fault⟩)

namespace CommandLine

/-- The dialect fields that the command line sets, with their texts. -/
def overrides (c : CommandLine) : List (Text × Text) := c.settings.filterMap readSetting?

/-- A configuration with what the command line says in place, and the first setting of an unknown
field, after which no more are in place. -/
def configure (c : CommandLine) (config : Config) : Config × Option SettingFault :=
  let (overrides, fault?) := config.overrides.withSettings c.overrides
  ({ config with
      dialect? := c.dialect?.or config.dialect?
      nesting? := c.nesting?.or config.nesting?
      overrides }, fault?)

end CommandLine

end TemplateGuards
