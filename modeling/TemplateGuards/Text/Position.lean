import TemplateGuards.Text

/-!
Positions in a template: a line and a column, both counted from 1.  A line ends at a line feed,
and columns count characters.  A `Place` is a position together with the byte offset at which
it lies, and a text moves a place on (`Place.advance`).

* `positionAt?`: the position of a byte offset;
* `Place.advance_append`: moving on over two texts is moving on over the one, then the other.
-/

namespace TemplateGuards

/-- A line and a column, both counted from 1. -/
structure Position where
  line : Nat
  column : Nat
deriving DecidableEq, Repr

namespace Position

/-- The position of the first character of a text. -/
def start : Position := ⟨1, 1⟩

/-- The position after one more character. -/
def next (p : Position) (c : Char) : Position :=
  if c = '\n' then ⟨p.line + 1, 1⟩ else ⟨p.line, p.column + 1⟩

/-- The written form of a position. -/
def toText (p : Position) : Text := Text.ofNat p.line ++ ":" ++ Text.ofNat p.column

end Position

/-- A position and the byte offset at which it lies. -/
structure Place where
  offset : Nat
  position : Position
deriving DecidableEq, Repr

namespace Place

/-- The place of the first character of a text. -/
def start : Place := ⟨0, Position.start⟩

/-- The place after one more character. -/
def next (p : Place) (c : Char) : Place := ⟨p.offset + c.utf8Size, p.position.next c⟩

/-- The place after the characters of a text. -/
def advance (p : Place) (t : Text) : Place := t.foldl next p

@[simp] theorem advance_nil (p : Place) : p.advance [] = p := rfl

@[simp] theorem advance_cons (p : Place) (c : Char) (t : Text) :
    p.advance (c :: t) = (p.next c).advance t := rfl

@[simp] theorem advance_append (p : Place) (s t : Text) :
    p.advance (s ++ t) = (p.advance s).advance t := by
  simp [advance]

/-- A place moves on by the byte size of the text. -/
@[simp] theorem offset_advance (p : Place) (t : Text) :
    (p.advance t).offset = p.offset + t.byteSize := by
  induction t generalizing p with
  | nil => simp
  | cons c cs ih => simp [ih, next, Nat.add_assoc]

end Place

/-- The position that lies `offset` bytes after the first character, reading from `place` on;
`none` beyond the end of the text and inside a character. -/
def positionFrom? (place : Place) (offset : Nat) : Text → Option Position
  | [] => if place.offset = offset then some place.position else none
  | c :: cs =>
    if place.offset = offset then some place.position
    else positionFrom? (place.next c) offset cs

/-- The position of a byte offset in a text; `none` beyond its end and inside a character. -/
def positionAt? (source : Text) (offset : Nat) : Option Position :=
  positionFrom? Place.start offset source

end TemplateGuards
