import TemplateGuards.Yaml.Basic
import TemplateGuards.Yaml.Token

/-!
Reading a YAML document from its tokens.  A text holds one document, with directives before it if
it is started by a marker, and may end with markers; a text of comments alone is nothing at all.

The readers of nodes call each other, and their first argument bounds how deeply;
`Document.ofTokens?` starts them with a bound that no tokens of their number exhaust.

* `Feed`: the tokens still to read, with what is known of handles and anchors;
* `node`: one node with its properties;
* `Yaml.read?`: the document of a text.
-/

namespace TemplateGuards.Yaml

/-- The tokens still to read, and what has been learnt from those before. -/
structure Feed where
  tokens : List Token
  /-- What the handles of tags stand for. -/
  handles : List (Text × Text)
  /-- The anchors so far, the last one first, each with its number. -/
  names : List (Text × Nat)
  /-- The nodes that carry anchors, as far as they are read. -/
  anchored : List (Nat × Yaml)

namespace Feed

/-- Going on with these tokens. -/
def goOn (f : Feed) (tokens : List Token) : Feed := { f with tokens }

/-- Is the next token, or the end of all, one at which nothing is left for a node? -/
def endsAt (f : Feed) (ends : List Token) : Bool := f.tokens.head?.all ends.contains

/-- Going on after the next token. -/
def skip (f : Feed) : Feed := f.goOn (f.tokens.drop 1)

/-- What a tag stands for; a handle that is not known is refused. -/
def expand? (f : Feed) (handle suffix : Text) : Option Text :=
  if handle.isEmpty then some suffix else (f.handles.lookup handle).map (· ++ suffix)

end Feed

/-! ### Properties -/

/-- What precedes a node. -/
structure Properties where
  anchor? : Option Text
  tag? : Option Text
deriving DecidableEq, Repr

namespace Properties

/-- Is there any? -/
def isNone (p : Properties) : Bool := p.anchor?.isNone && p.tag?.isNone

/-- An anchor and a tag, in either order and each if it is there. -/
def read? (f : Feed) : Option (Properties × Feed) :=
  match f.tokens with
  | .anchor a :: .tag h s :: rest
  | .tag h s :: .anchor a :: rest => (f.expand? h s).map fun t => (⟨some a, some t⟩, f.goOn rest)
  | .anchor a :: rest => some (⟨some a, none⟩, f.goOn rest)
  | .tag h s :: rest => (f.expand? h s).map fun t => (⟨none, some t⟩, f.goOn rest)
  | _ => some (⟨none, none⟩, f)

/-- The anchor made known before its node is read, so that the node may refer to itself. -/
def announce (p : Properties) (f : Feed) : Feed :=
  match p.anchor? with
  | some name => { f with names := (name, f.names.length) :: f.names }
  | none => f

/-- The node of the anchor that got the number `anchor`. -/
def register (p : Properties) (anchor : Nat) (y : Yaml) (f : Feed) : Feed :=
  if p.anchor?.isSome then { f with anchored := (anchor, y) :: f.anchored } else f

end Properties

/-! ### Nodes -/

/-- Where a node is read: inside brackets, in a block collection, or as the key or the value of a
block map, where a list may start without a token of its own. -/
inductive Surroundings
  | flow
  | block
  | entry
deriving DecidableEq, Repr

mutual

/-- A node with its properties. -/
def node : Nat → Surroundings → Feed → Option (Yaml × Feed)
  | 0, _, _ => none
  | fuel + 1, around, f =>
    match f.tokens with
    | .reference name :: rest =>
      (f.names.lookup name).map fun anchor => (.reference anchor, f.goOn rest)
    | _ => do
      let (p, g) ← Properties.read? f
      let (y, h) ← content fuel around p (p.announce g)
      return (y, p.register g.names.length y h)

/-- A node after its properties.  Where properties precede, nothing at all may be left for it.
The exclamation mark alone is no tag of a scalar that is written out. -/
def content : Nat → Surroundings → Properties → Feed → Option (Yaml × Feed)
  | 0, _, _, _ => none
  | fuel + 1, around, p, f =>
    match f.tokens with
    | .scalar text isPlain :: rest =>
      some (.scalar text isPlain (p.tag?.filter (· != ['!'])), f.goOn rest)
    | .listOpen :: rest => flowList fuel [] (f.goOn rest)
    | .mapOpen :: rest => flowMap fuel [] (f.goOn rest)
    | token :: rest =>
      if token = .item && around = .entry then danglingList fuel [] f
      else if token = .blockList && around != .flow then blockList fuel [] (f.goOn rest)
      else if token = .blockMap && around != .flow then blockMap fuel [] (f.goOn rest)
      else if p.isNone then none
      else some (.scalar [] true p.tag?, f)
    | [] => if p.isNone then none else some (.scalar [] true p.tag?, f)

/-- A node, or nothing at all before one of these tokens. -/
def nodeBefore : Nat → Surroundings → List Token → Feed → Option (Yaml × Feed)
  | 0, _, _, _ => none
  | fuel + 1, around, ends, f =>
    if f.endsAt ends then some (nothing, f) else node fuel around f

/-- The value of a key, before one of these tokens; without a colon it is nothing at all. -/
def valueBefore : Nat → Surroundings → List Token → Feed → Option (Yaml × Feed)
  | 0, _, _, _ => none
  | fuel + 1, around, ends, f =>
    match f.tokens with
    | .value :: rest => nodeBefore fuel around ends (f.goOn rest)
    | _ => some (nothing, f)

/-- The rest of a block list after its items so far, last item first. -/
def blockList : Nat → List Yaml → Feed → Option (Yaml × Feed)
  | 0, _, _ => none
  | fuel + 1, items, f =>
    match f.tokens with
    | .item :: rest => do
      let (y, f) ← nodeBefore fuel .block [.item, .blockEnd] (f.goOn rest)
      blockList fuel (y :: items) f
    | .blockEnd :: rest => some (.list items.reverse, f.goOn rest)
    | _ => none

/-- The rest of a list in the column of the map around, after its items so far, last item first.
No token ends it. -/
def danglingList : Nat → List Yaml → Feed → Option (Yaml × Feed)
  | 0, _, _ => none
  | fuel + 1, items, f =>
    match f.tokens with
    | .item :: rest => do
      let (y, f) ← nodeBefore fuel .block [.item, .key, .value, .blockEnd] (f.goOn rest)
      danglingList fuel (y :: items) f
    | _ => some (.list items.reverse, f)

/-- The rest of a block map after its entries so far, last entry first. -/
def blockMap : Nat → List (Yaml × Yaml) → Feed → Option (Yaml × Feed)
  | 0, _, _ => none
  | fuel + 1, entries, f =>
    match f.tokens with
    | .key :: rest => do
      let ends := [.key, .value, .blockEnd]
      let (key, f) ← nodeBefore fuel .entry ends (f.goOn rest)
      let (value, f) ← valueBefore fuel .entry ends f
      blockMap fuel ((key, value) :: entries) f
    | .blockEnd :: rest => some (.map entries.reverse, f.goOn rest)
    | _ => none

/-- The rest of a flow list after its items so far, last item first. -/
def flowList : Nat → List Yaml → Feed → Option (Yaml × Feed)
  | 0, _, _ => none
  | fuel + 1, items, f =>
    match f.tokens with
    | .listClose :: rest => some (.list items.reverse, f.goOn rest)
    | _ => do
      let (y, f) ← flowItem fuel f
      match f.tokens with
      | .comma :: rest => flowList fuel (y :: items) (f.goOn rest)
      | .listClose :: rest => some (.list (y :: items).reverse, f.goOn rest)
      | _ => none

/-- An item of a flow list; a key with its value makes a map of its own.  Where nothing follows
the token for a key, the next token goes with it. -/
def flowItem : Nat → Feed → Option (Yaml × Feed)
  | 0, _ => none
  | fuel + 1, f =>
    match f.tokens with
    | .key :: rest => do
      let (key, f) ←
        if (f.goOn rest).endsAt [.value, .comma, .listClose] then
          some (nothing, (f.goOn rest).skip)
        else node fuel .flow (f.goOn rest)
      let (value, f) ← valueBefore fuel .flow [.comma, .listClose] f
      return (.map [(key, value)], f)
    | _ => node fuel .flow f

/-- The rest of a flow map after its entries so far, last entry first. -/
def flowMap : Nat → List (Yaml × Yaml) → Feed → Option (Yaml × Feed)
  | 0, _, _ => none
  | fuel + 1, entries, f =>
    match f.tokens with
    | .mapClose :: rest => some (.map entries.reverse, f.goOn rest)
    | _ => do
      let (entry, f) ← flowEntry fuel f
      match f.tokens with
      | .comma :: rest => flowMap fuel (entry :: entries) (f.goOn rest)
      | .mapClose :: rest => some (.map (entry :: entries).reverse, f.goOn rest)
      | _ => none

/-- An entry of a flow map; a key may stand without a value. -/
def flowEntry : Nat → Feed → Option ((Yaml × Yaml) × Feed)
  | 0, _ => none
  | fuel + 1, f =>
    match f.tokens with
    | .key :: rest => do
      let (key, f) ← nodeBefore fuel .flow [.value, .comma, .mapClose] (f.goOn rest)
      let (value, f) ← valueBefore fuel .flow [.comma, .mapClose] f
      return ((key, value), f)
    | _ => do
      let (key, f) ← node fuel .flow f
      return ((key, nothing), f)

end

/-! ### Documents -/

/-- The handles that need no directive. -/
def commonHandles : List (Text × Text) := [("!", "!"), ("!!", "tag:yaml.org,2002:")]

/-- The handles that directives before a document define, and the tokens after them.  A handle may
be defined once, and a version named once; no version but 1.1 and 1.2 is known. -/
def readDirectives? (versioned : Bool) (handles : List (Text × Text)) :
    List Token → Option (List (Text × Text) × List Token)
  | .directive (.version major minor) :: rest =>
    if !versioned && major == 1 && (minor == 1 || minor == 2) then
      readDirectives? true handles rest
    else none
  | .directive (.handle handle expansion) :: rest =>
    if (handles.lookup handle).isSome then none
    else readDirectives? versioned ((handle, expansion) :: handles) rest
  | tokens => some (handles, tokens)

/-- Is the token one with which a document started by a marker may begin? -/
def Token.isPreamble : Token → Bool
  | documentStart => true
  | directive _ => true
  | _ => false

/-- Is the token one before which a document is over? -/
def Token.isBoundary : Token → Bool
  | documentEnd => true
  | t => t.isPreamble

namespace Document

/-- The root of a document, and the tokens after it. -/
def readRoot? (handles : List (Text × Text)) (tokens : List Token) :
    Option (Document × List Token) := do
  let (root, f) ← node (4 * tokens.length + 8) .block ⟨tokens, handles ++ commonHandles, [], []⟩
  return (⟨root, f.anchored⟩, f.tokens)

/-- A document started by a marker, and the tokens after it. -/
def readMarked? (tokens : List Token) : Option (Document × List Token) := do
  match ← readDirectives? false [] tokens with
  | (handles, .documentStart :: rest) =>
    if rest.head?.all Token.isBoundary then return (⟨nothing, []⟩, rest)
    else readRoot? handles rest
  | _ => none

/-- The document that tokens make up. -/
def ofTokens? (tokens : List Token) : Option Document := do
  if tokens.isEmpty then return ⟨nothing, []⟩
  let (d, rest) ←
    if tokens.head?.any Token.isPreamble then readMarked? tokens else readRoot? [] tokens
  if rest.all (· == .documentEnd) then return d else none

end Document

/-- The document of a text. -/
def read? (source : Text) : Option Document := (Token.ofText? source).bind Document.ofTokens?

end TemplateGuards.Yaml
