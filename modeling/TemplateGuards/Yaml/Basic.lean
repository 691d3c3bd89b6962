import TemplateGuards.Text

/-!
YAML documents as they are used for configuration: scalars, lists and maps, and references to
nodes that carry an anchor.  A scalar keeps its text as it is written, its tag and whether it is
plain, because what a plain scalar means is settled only where it is used: as an optional text
`null` is an absent one, in a list of texts it is the text `null`.

* `Document`: a node together with the nodes that references name;
* `Document.text?`, `Document.optionalText?`: a node read as a text and as an optional one;
* `Document.variant?`: a node read as the optional name of a variant;
* `Document.texts?`, `Document.entries?`: a node read as a list of texts and as named nodes.
-/

namespace TemplateGuards

/-- A node of a YAML document. -/
inductive Yaml
  /-- A scalar; `isPlain` tells a plain one from a quoted or a block scalar. -/
  | scalar (text : Text) (isPlain : Bool) (tag? : Option Text)
  | list (items : List Yaml)
  | map (entries : List (Yaml × Yaml))
  /-- The node that carries the anchor of a number. -/
  | reference (anchor : Nat)

namespace Yaml

/-- The node that is written as nothing at all. -/
def nothing : Yaml := scalar [] true none

/-- The words for a null. -/
def nullWords : List Text := ["~", "null", "Null", "NULL"]

/-- Does the text of a plain scalar spell a null?  Nothing at all does. -/
def spellsNull (t : Text) : Bool := t.isEmpty || nullWords.contains t

/-- The tag of nulls. -/
def nullTag : Text := "tag:yaml.org,2002:null"

/-- The text of a scalar. -/
def asText? : Yaml → Option Text
  | scalar text _ _ => some text
  | _ => none

/-- An optional text: a plain null without a tag is an absent one.  A plain scalar with the tag of
nulls has to be a word for a null. -/
def asOptionalText? : Yaml → Option (Option Text)
  | scalar text false _ => some (some text)
  | scalar text true none => some (if spellsNull text then none else some text)
  | scalar text true (some tag) =>
    if tag != nullTag then some (some text)
    else if nullWords.contains text then some none
    else none
  | _ => none

/-- The variant that a tag of its own names: what follows the exclamation mark, or the mark where
nothing follows. -/
def variantOfTag? : Option Text → Option Text
  | some ['!'] => some ['!']
  | some ('!' :: name) => some name
  | _ => none

/-- The name of a variant: the text of a scalar, or its tag, and then there may be no text. -/
def asVariant? : Yaml → Option Text
  | scalar text isPlain tag? =>
    match variantOfTag? tag? with
    | some name => if isPlain && spellsNull text then some name else none
    | none => some text
  | _ => none

/-- A node together with the nodes that references name. -/
structure Document where
  root : Yaml
  /-- The nodes that carry anchors, each with the number of its anchor. -/
  anchored : List (Nat × Yaml)

namespace Document

/-- The node itself, or the one that it refers to. -/
def follow (d : Document) : Yaml → Yaml
  | reference anchor => (d.anchored.lookup anchor).getD nothing
  | y => y

/-- The text of a node. -/
def text? (d : Document) (y : Yaml) : Option Text := (d.follow y).asText?

/-- The optional text of a node. -/
def optionalText? (d : Document) (y : Yaml) : Option (Option Text) := (d.follow y).asOptionalText?

/-- The optional name of a variant that a node holds. -/
def variant? (d : Document) (y : Yaml) : Option (Option Text) :=
  match d.optionalText? y with
  | some (some _) => (d.follow y).asVariant?.map some
  | absent => absent

/-- A list of texts; nothing at all is the empty list. -/
def texts? (d : Document) (y : Yaml) : Option (List Text) :=
  match d.follow y with
  | scalar [] true _ => some []
  | list items => items.mapM d.text?
  | _ => none

/-- A map whose keys are texts; nothing at all is the empty map. -/
def entries? (d : Document) (y : Yaml) : Option (List (Text × Yaml)) :=
  match d.follow y with
  | scalar [] true _ => some []
  | map entries => entries.mapM fun (key, value) => (d.text? key).map (·, value)
  | _ => none

end Document

end Yaml

end TemplateGuards
