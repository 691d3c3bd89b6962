import TemplateGuards.Text

/-!
The reading position in a YAML document.  Structure in YAML is made of columns and of lines, so a
cursor knows both; it also knows whether it is fresh, that is, whether a key can start at it,
because only there a block collection can start too.

* `Cursor.skipGap`: past spaces, comments and line breaks;
* `lineBreak?`: a line break at the start of a text, with the text that it stands for;
* `Fold`: the white space inside a scalar that may run over several lines.
-/

namespace TemplateGuards.Yaml

/-! ### Characters -/

/-- The characters that a document may hold. -/
def isAllowed (c : Char) : Bool :=
  let n := c.toNat
  n == 0x09 || n == 0x0A || n == 0x0D || (0x20 ≤ n && n ≤ 0x7E) || n == 0x85 ||
    (0xA0 ≤ n && n ≤ 0xD7FF) || (0xE000 ≤ n && n ≤ 0xFFFD) || 0x10000 ≤ n

/-- The characters that break a line. -/
def isBreak (c : Char) : Bool :=
  c == '\n' || c == '\r' || c == '\u0085' || c == '\u2028' || c == '\u2029'

/-- The blanks within a line. -/
def isGap (c : Char) : Bool := c == ' ' || c == '\t'

/-- Does the text end here, or go on with white space? -/
def endsWord : Text → Bool
  | [] => true
  | c :: _ => isGap c || isBreak c

/-- Does the text start with a marker between documents? -/
def startsMarker (s : Text) : Bool :=
  (s.take 3 == ['-', '-', '-'] || s.take 3 == ['.', '.', '.']) && endsWord (s.drop 3)

/-- A line break at the start of a text: the text it stands for, and what follows it.  The
separators of lines and of paragraphs stand for themselves, every other break for a line feed. -/
def lineBreak? : Text → Option (Text × Text)
  | '\r' :: '\n' :: rest => some (['\n'], rest)
  | '\u2028' :: rest => some (['\u2028'], rest)
  | '\u2029' :: rest => some (['\u2029'], rest)
  | c :: rest => if isBreak c then some (['\n'], rest) else none
  | [] => none

/-! ### Cursors -/

/-- A reading position. -/
structure Cursor where
  rest : Text
  line : Nat
  column : Nat
  /-- Can a key start here? -/
  fresh : Bool
deriving DecidableEq, Repr

namespace Cursor

/-- The start of a text. -/
def start (source : Text) : Cursor := ⟨source, 0, 0, true⟩

/-- The cursor some characters further on its line, where no key can start. -/
def past (k : Cursor) (n : Nat) : Cursor := ⟨k.rest.drop n, k.line, k.column + n, false⟩

/-- The cursor at what is left of its line, where no key can start. -/
def upTo (k : Cursor) (rest : Text) : Cursor := k.past (k.rest.length - rest.length)

/-- The cursor as one where a key can start, or cannot. -/
def withFresh (k : Cursor) (fresh : Bool) : Cursor := { k with fresh }

/-- How many bytes there may be between the start of a key and its colon. -/
def keyLimit : Nat := 1024

/-- Is the cursor on the line of an earlier one and not too far from it for a key? -/
def isNear (k earlier : Cursor) : Bool :=
  k.line == earlier.line &&
    Text.byteSize (earlier.rest.take (k.column - earlier.column)) ≤ keyLimit

/-- The cursor past spaces, comments and line breaks.  A tab counts as a space except where
indentation is read, and a byte order mark may start a line, of which it takes up a column.  A
line break makes the cursor fresh outside flow collections. -/
def skipFrom (inFlow comment fresh : Bool) (line column : Nat) : Text → Cursor
  | [] => ⟨[], line, column, fresh⟩
  | '\r' :: '\n' :: rest => skipFrom inFlow false (fresh || !inFlow) (line + 1) 0 rest
  | c :: rest =>
    if isBreak c then skipFrom inFlow false (fresh || !inFlow) (line + 1) 0 rest
    else if comment || c == ' ' || (c == '\t' && (inFlow || !fresh)) ||
        (c == '\uFEFF' && column == 0) then
      skipFrom inFlow comment fresh line (column + 1) rest
    else if c == '#' then skipFrom inFlow true fresh line (column + 1) rest
    else ⟨c :: rest, line, column, fresh⟩

/-- The cursor past spaces, comments and line breaks, inside or outside a flow collection. -/
def skipGap (inFlow : Bool) (k : Cursor) : Cursor :=
  skipFrom inFlow false k.fresh k.line k.column k.rest

end Cursor

/-! ### Folding -/

/-- White space inside a scalar: spaces on one line, or a first line break and those after it.
The spaces around line breaks do not count. -/
inductive Fold
  /-- Blanks within a line, last one first. -/
  | spaces (backwards : Text)
  /-- The text of the first line break and of the ones after it. -/
  | breaks (first more : Text)
deriving DecidableEq, Repr

namespace Fold

/-- No white space. -/
def none : Fold := spaces []

/-- Does the white space go over a line break? -/
def isBroken : Fold → Bool
  | spaces _ => false
  | breaks .. => true

/-- Is there any white space? -/
def isNone (f : Fold) : Bool := f == none

/-- The white space with one more blank. -/
def addGap (c : Char) : Fold → Fold
  | spaces s => spaces (c :: s)
  | breaks first more => breaks first more

/-- The white space with one more line break. -/
def addBreak (text : Text) : Fold → Fold
  | spaces _ => breaks text []
  | breaks first more => breaks first (more ++ text)

/-- What the white space stands for: one line break is a space, further ones stay. -/
def text : Fold → Text
  | spaces s => s.reverse
  | breaks first more =>
    if first == ['\n'] then (if more.isEmpty then [' '] else more) else first ++ more

end Fold

end TemplateGuards.Yaml
