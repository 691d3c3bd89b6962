import TemplateGuards.Config.Basic
import TemplateGuards.Yaml.Printer
import TemplateGuards.Yaml.Reader

/-!
Configurations as YAML documents.  A document is a map; keys that no configuration has are
passed over, and a key that one has may stand only once.

* `Config.ofDocument?`, `Config.parse?`: the configuration that a document holds;
* `Config.toDocument`, `Dialect.toDocument`: documents for display.
-/

namespace TemplateGuards

/-! ### Reading -/

/-- The values of a key in a map, in order. -/
def valuesOf (key : Text) (entries : List (Text × Yaml)) : List Yaml :=
  (entries.filter (·.1 == key)).map (·.2)

/-- The value of a key read by `read`, or `absent` where the key is missing.  A key that stands
more than once is refused. -/
def readKey? {α : Type} (entries : List (Text × Yaml)) (key : Text) (absent : α)
    (read : Yaml → Option α) : Option α :=
  match valuesOf key entries with
  | [] => some absent
  | [value] => read value
  | _ => none

/-- The optional value of a type with names that a node holds. -/
def Yaml.Document.named? {α : Type} [Named α] (d : Yaml.Document) (y : Yaml) :
    Option (Option α) :=
  match d.variant? y with
  | some (some written) => (Named.read? written).map some
  | some none => some none
  | none => none

/-- The overrides that a node of a document holds. -/
def Overrides.ofYaml? (d : Yaml.Document) (y : Yaml) : Option Overrides := do
  let entries ← d.entries? y
  let field (f : Field) := readKey? entries f.name none d.optionalText?
  return {
    preamble := ← field .preamble
    openSimple := ← field .openSimple
    openComplex := ← field .openComplex
    close := ← field .close
    user := ← field .user
    auxSeparator := ← field .auxSeparator }

/-- The configuration that a document holds. -/
def Config.ofDocument? (d : Yaml.Document) : Option Config := do
  let entries ← d.entries? d.root
  return {
    base? := ← readKey? entries "extends" none d.optionalText?
    dialect? := ← readKey? entries "dialect" none d.named?
    overrides := ← readKey? entries "overrides" .empty (Overrides.ofYaml? d)
    nesting? := ← readKey? entries "nesting" none d.named?
    templateFiles := ← readKey? entries "template-files" [] d.texts?
    ignore := ← readKey? entries "ignore" [] d.texts? }

/-- The configuration that a text spells. -/
def Config.parse? (source : Text) : Option Config :=
  (Yaml.read? source).bind Config.ofDocument?

/-! ### Showing -/

/-- The fields that overrides set, with their texts. -/
def Overrides.entries (o : Overrides) : List (Text × Text) :=
  Field.all.filterMap fun f => (o.get f).map (f.name, ·)

/-- A configuration as a document. -/
def Config.toDocument (c : Config) : Text :=
  let optional (key : Text) (value? : Option Text) : Text :=
    (value?.map (Yaml.printEntry 0 key)).getD []
  optional "extends" c.base? ++
    optional "dialect" (c.dialect?.map Named.name) ++
    Yaml.printMap "overrides" c.overrides.entries ++
    optional "nesting" (c.nesting?.map Named.name) ++
    Yaml.printList "template-files" c.templateFiles ++
    Yaml.printList "ignore" c.ignore

/-- A dialect as a document. -/
def Dialect.toDocument (d : Dialect) : Text :=
  Field.all.flatMap fun f => Yaml.printEntry 0 f.name (d.get f)

end TemplateGuards
