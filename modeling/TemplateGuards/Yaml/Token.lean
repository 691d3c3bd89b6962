import TemplateGuards.Yaml.Scalar

/-!
The tokens of a YAML document.  Outside flow collections the columns of a document decide where
collections start and end, and the tokens say so outright: `blockMap` and `blockList` start one
and `blockEnd` ends it.

That something is the key of a map shows only at the colon after it, so a `Lexer` remembers where
the last key may have started; when the colon comes, the tokens for a key are put in there.
Within each open bracket of a flow collection another key may start.

* `Token`: the tokens;
* `Lexer.step?`: one token read;
* `Token.ofText?`: the tokens of a text.
-/

namespace TemplateGuards.Yaml

/-- A token. -/
inductive Token
  | scalar (text : Text) (isPlain : Bool)
  | anchor (name : Text)
  | reference (name : Text)
  | tag (handle suffix : Text)
  | directive (directive : Directive)
  | documentStart
  | documentEnd
  /-- A list whose items start with dashes starts here. -/
  | blockList
  /-- A map whose keys stand in one column starts here. -/
  | blockMap
  /-- The innermost of such lists and maps ends here. -/
  | blockEnd
  | listOpen
  | listClose
  | mapOpen
  | mapClose
  | comma
  /-- An item of a list follows. -/
  | item
  /-- A key follows. -/
  | key
  /-- A value follows. -/
  | value
deriving DecidableEq, Repr

/-- A place where a key may have started. -/
structure KeyStart where
  /-- Does the document make no sense unless it is a key? -/
  required : Bool
  /-- How many tokens precede it. -/
  count : Nat
  cursor : Cursor

/-- How far the reading of tokens has come. -/
structure Lexer where
  cursor : Cursor
  /-- The least column of what belongs to the innermost block collection; outside all it is 0. -/
  floor : Nat
  /-- The floors around that collection, the innermost first. -/
  outerFloors : List Nat
  keyStart? : Option KeyStart
  /-- Where keys may have started outside each open bracket, the innermost first. -/
  outerKeyStarts : List (Option KeyStart)
  count : Nat
  /-- The tokens so far, the last one first. -/
  backwards : List Token

namespace Lexer

/-- At the start of a text. -/
def start (source : Text) : Lexer := ⟨Cursor.start source, 0, [], none, [], 0, []⟩

/-- Is a bracket open? -/
def inFlow (x : Lexer) : Bool := !x.outerKeyStarts.isEmpty

/-! ### Emitting tokens -/

/-- One more token, the reading going on at a cursor. -/
def emit (x : Lexer) (t : Token) (k : Cursor) : Lexer :=
  { x with cursor := k, count := x.count + 1, backwards := t :: x.backwards }

/-- One more token behind the first `count` ones. -/
def insert (x : Lexer) (count : Nat) (t : Token) : Lexer :=
  { x with
    count := x.count + 1
    backwards :=
      x.backwards.take (x.count - count) ++ t :: x.backwards.drop (x.count - count) }

/-! ### Block collections -/

/-- The block collections with floors beyond `limit` ended, given all floors, the innermost first:
how many these are, and the floors that stay. -/
def unwind (limit floor : Nat) : List Nat → Nat × Nat × List Nat
  | [] => (0, floor, [])
  | outer :: rest =>
    if floor ≤ limit then (0, floor, outer :: rest)
    else
      let (n, left) := unwind limit outer rest
      (n + 1, left)

/-- The block collections with floors beyond `limit` ended; none ends inside a bracket. -/
def closeBlocks (x : Lexer) (limit : Nat) : Lexer :=
  if x.inFlow then x
  else
    let (n, floor, outerFloors) := unwind limit x.floor x.outerFloors
    { x with
      floor
      outerFloors
      count := x.count + n
      backwards := List.replicate n .blockEnd ++ x.backwards }

/-- A block collection in a column started behind the first `count` tokens, unless one in that
column is open already or a bracket is. -/
def openBlock (x : Lexer) (column count : Nat) (t : Token) : Lexer :=
  if x.inFlow || column < x.floor then x
  else { x.insert count t with floor := column + 1, outerFloors := x.floor :: x.outerFloors }

/-! ### Keys -/

/-- What may have been a key was none. -/
def forgetKey? (x : Lexer) : Option Lexer :=
  match x.keyStart? with
  | some s => if s.required then none else some { x with keyStart? := none }
  | none => some x

/-- A key may start here, if the cursor is fresh.  In the column of the block collection around it
has to be one. -/
def markKey? (x : Lexer) : Option Lexer :=
  if !x.cursor.fresh then some x
  else do
    let x ← x.forgetKey?
    let required := !x.inFlow && x.floor == x.cursor.column + 1
    return { x with keyStart? := some ⟨required, x.count, x.cursor⟩ }

/-! ### Reading one token -/

/-- Past white space and comments, with the block collections ended that do not reach the column
of what follows. -/
def skipGap (x : Lexer) : Lexer :=
  let k := x.cursor.skipGap x.inFlow
  { x with cursor := k }.closeBlocks (k.column + 1)

/-- A token at which a key may start. -/
def leaf? (x : Lexer) (read : Cursor → Option (Token × Cursor)) : Option Lexer := do
  let x ← x.markKey?
  let (t, k) ← read x.cursor
  return x.emit t k

/-- A scalar at which a key may start. -/
def scalar? (x : Lexer) (isPlain : Bool) (read : Cursor → Option (Text × Cursor)) :
    Option Lexer :=
  x.leaf? fun k => (read k).map fun (text, k) => (.scalar text isPlain, k)

/-- A literal or folded scalar.  It is no key, and one may start after it. -/
def blockScalar? (x : Lexer) (folded : Bool) : Option Lexer := do
  let x ← x.forgetKey?
  let (text, k) ← readBlock? folded x.floor x.cursor
  return x.emit (.scalar text false) k

/-- A bracket that opens a flow collection. -/
def openBracket? (x : Lexer) (t : Token) : Option Lexer := do
  let x ← x.markKey?
  let x := { x with keyStart? := none, outerKeyStarts := x.keyStart? :: x.outerKeyStarts }
  return x.emit t ((x.cursor.past 1).withFresh true)

/-- A bracket that closes a flow collection. -/
def closeBracket? (x : Lexer) (t : Token) : Option Lexer := do
  let x ← x.forgetKey?
  let x :=
    match x.outerKeyStarts with
    | s :: outer => { x with keyStart? := s, outerKeyStarts := outer }
    | [] => x
  return x.emit t (x.cursor.past 1)

/-- A comma. -/
def comma? (x : Lexer) : Option Lexer := do
  let x ← x.forgetKey?
  return x.emit .comma ((x.cursor.past 1).withFresh true)

/-- A token that starts a block collection in its column where none is open.  Outside brackets the
cursor has to be fresh for it. -/
def opener? (x : Lexer) (block : Token) : Option Lexer :=
  if !x.inFlow && !x.cursor.fresh then none
  else (x.openBlock x.cursor.column x.count block).forgetKey?

/-- The dash before an item of a list. -/
def item? (x : Lexer) : Option Lexer := do
  let x ← x.opener? .blockList
  return x.emit .item ((x.cursor.past 1).withFresh true)

/-- The question mark before a key. -/
def key? (x : Lexer) : Option Lexer := do
  let x ← x.opener? .blockMap
  return x.emit .key ((x.cursor.past 1).withFresh !x.inFlow)

/-- The colon before a value.  A key that started near makes the colon's key; without one the key
is given otherwise, or missing. -/
def value? (x : Lexer) : Option Lexer :=
  match x.keyStart?.filter fun s => x.cursor.isNear s.cursor with
  | some s =>
    let x := ({ x with keyStart? := none }.insert s.count .key).openBlock s.cursor.column s.count
      .blockMap
    some (x.emit .value (x.cursor.past 1))
  | none => do
    let x ← x.opener? .blockMap
    return x.emit .value ((x.cursor.past 1).withFresh !x.inFlow)

/-- A token between documents, or a directive: all block collections end. -/
def boundary? (x : Lexer) (read : Cursor → Option (Token × Cursor)) : Option Lexer := do
  let x ← (x.closeBlocks 0).forgetKey?
  let (t, k) ← read x.cursor
  return x.emit t k

/-- The indicators that are tokens only where white space follows them, or inside brackets. -/
def indicator? (x : Lexer) : Option (Option Lexer) :=
  match x.cursor.rest with
  | '-' :: rest => if endsWord rest then some x.item? else none
  | '?' :: rest => if x.inFlow || endsWord rest then some x.key? else none
  | ':' :: rest => if x.inFlow || endsWord rest then some x.value? else none
  | _ => none

/-- A token that starts with this character. -/
def token? (x : Lexer) (c : Char) : Option Lexer :=
  match c with
  | '[' => x.openBracket? .listOpen
  | '\x7b' => x.openBracket? .mapOpen
  | ']' => x.closeBracket? .listClose
  | '\x7d' => x.closeBracket? .mapClose
  | ',' => x.comma?
  | '*' => x.leaf? fun k => (readAnchor? k).map fun (name, k) => (.reference name, k)
  | '&' => x.leaf? fun k => (readAnchor? k).map fun (name, k) => (.anchor name, k)
  | '!' => x.leaf? fun k =>
    (readTag? x.inFlow k).map fun (handle, suffix, k) => (.tag handle suffix, k)
  | '\'' => x.scalar? false (readQuoted? '\'')
  | '"' => x.scalar? false (readQuoted? '"')
  | _ =>
    if (c == '|' || c == '>') && !x.inFlow then x.blockScalar? (c == '>')
    else if startsPlain x.inFlow x.cursor.rest then
      x.scalar? true (readPlain? x.inFlow x.floor)
    else none

/-- One more token, the cursor standing at it; nothing at the end of the text. -/
def step? (x : Lexer) : Option (Option Lexer) :=
  match x.cursor.rest with
  | [] => none
  | c :: _ =>
    some <|
      if x.cursor.column == 0 && c == '%' then
        x.boundary? fun k => (readDirective? k).map fun (d, k) => (.directive d, k)
      else if x.cursor.column == 0 && startsMarker x.cursor.rest then
        x.boundary? fun k =>
          some (if c == '-' then .documentStart else .documentEnd, k.past 3)
      else x.indicator?.getD (x.token? c)

/-- The end of the text: all block collections end. -/
def finish? (x : Lexer) : Option (List Token) := do
  let x ← (x.closeBlocks 0).forgetKey?
  return x.backwards.reverse

/-- The tokens up to the end of the text, of which the first argument bounds the number. -/
def run? : Nat → Lexer → Option (List Token)
  | 0, _ => none
  | fuel + 1, x =>
    match x.skipGap.step? with
    | none => x.skipGap.finish?
    | some x => x.bind (run? fuel)

end Lexer

/-- The tokens of a text. -/
def Token.ofText? (source : Text) : Option (List Token) :=
  if source.all isAllowed then (Lexer.start source).run? (source.length + 1) else none

end TemplateGuards.Yaml
