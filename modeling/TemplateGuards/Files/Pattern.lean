import TemplateGuards.Text

/-!
Patterns of paths, and regular expressions as far as patterns need them.

In a pattern a `*` stands for any run of characters without a line feed, and every other character
for itself.  A pattern is found in a path where some part of the path fits it, and it is found at
the end of a path where some part at the very end does.  A pattern with a star is searched for as a
regular expression; any other is a text to look for.

An expression is a sequence of atoms, each of them once or, with a star behind it, any number of
times.  An atom is a point, which stands for any character but a line feed, or a character that
stands for itself, with a backslash before it where it would mean something else.  A dollar sign at
the very end asks for the end of the text.  An expression is found in a text where some part of the
text fits it.

The search follows all possibilities at once: it keeps, for each position of the text, whether the
part of the expression read so far can end there (`Reach`), so that its time is the product of the
two lengths.

* `Regex.escape`: the spelling of an expression that a single text fits;
* `Regex.read?`: the expression that a text spells;
* `Regex.isFoundIn`: does some part of a text fit the expression?
* `Pattern.spelling`: the regular expression of a pattern;
* `Pattern.foundIn`, `Pattern.foundAtEnd`: is a pattern found in a path, and at its end?
-/

namespace TemplateGuards

namespace Regex

/-- What stands for one character. -/
inductive Atom
  /-- That character. -/
  | char (c : Char)
  /-- Any character but a line feed. -/
  | any
deriving DecidableEq, Repr

/-- Does the atom stand for the character? -/
def Atom.accepts : Atom → Char → Bool
  | char c, d => d == c
  | any, d => d != '\n'

/-- An atom, once or any number of times. -/
structure Item where
  atom : Atom
  repeated : Bool
deriving DecidableEq, Repr

end Regex

/-- A regular expression. -/
structure Regex where
  items : List Regex.Item
  /-- Does the part that fits have to be at the end of the text? -/
  atEnd : Bool
deriving DecidableEq, Repr

namespace Regex

/-! ### Spelling -/

/-- The characters that a backslash has to precede where they stand for themselves. -/
def special : Text := "\\.+*?()|[]\x7b\x7d^$#&-~"

/-- Does a backslash have to precede the character? -/
def isSpecial (c : Char) : Bool := special.contains c

/-- The spelling of a character that stands for itself. -/
def escapeChar (c : Char) : Text := if isSpecial c then ['\\', c] else [c]

/-- The spelling of a text that stands for itself. -/
def escape (t : Text) : Text := t.flatMap escapeChar

/-- What an expression is spelled with. -/
inductive Sign
  | atom (atom : Atom)
  | star
  | dollar
deriving DecidableEq, Repr

/-- The signs of a spelling; there are none where a special character other than a point, a star or
a dollar sign has no backslash before it, or any other character has one. -/
def signs? : Text → Option (List Sign)
  | [] => some []
  | '\\' :: c :: s => if isSpecial c then (signs? s).map (.atom (.char c) :: ·) else none
  | '.' :: s => (signs? s).map (.atom .any :: ·)
  | '*' :: s => (signs? s).map (.star :: ·)
  | '$' :: s => (signs? s).map (.dollar :: ·)
  | c :: s => if isSpecial c then none else (signs? s).map (.atom (.char c) :: ·)

/-- The expression with one more item in front. -/
def cons (i : Item) (r : Regex) : Regex := ⟨i :: r.items, r.atEnd⟩

/-- The expression of some signs. -/
def ofSigns? : List Sign → Option Regex
  | [] => some ⟨[], false⟩
  | [.dollar] => some ⟨[], true⟩
  | .atom a :: .star :: signs => (ofSigns? signs).map (cons ⟨a, true⟩)
  | .atom a :: signs => (ofSigns? signs).map (cons ⟨a, false⟩)
  | _ => none

/-- The expression that a text spells. -/
def read? (spelling : Text) : Option Regex := (signs? spelling).bind ofSigns?

/-! ### Search -/

/-- For each position of a text, the one after its last character included, whether it is
reached. -/
abbrev Reach := List Bool

/-- Every position of a text. -/
def everywhere (t : Text) : Reach := t.map (fun _ => true) ++ [true]

/-- The positions reached after an atom, `arrives` telling whether the first position is. -/
def afterOnce (a : Atom) (arrives : Bool) : Text → Reach → Reach
  | [], _ => [arrives]
  | c :: t, reach => arrives :: afterOnce a (reach.headD false && a.accepts c) t reach.tail

/-- The positions reached after a repeated atom, `arrives` telling whether a run of characters that
it stands for goes up to the first position. -/
def afterRun (a : Atom) (arrives : Bool) : Text → Reach → Reach
  | [], reach => [reach.headD false || arrives]
  | c :: t, reach =>
    (reach.headD false || arrives) ::
      afterRun a ((reach.headD false || arrives) && a.accepts c) t reach.tail

/-- The positions reached after one more item of an expression. -/
def advance (t : Text) (reach : Reach) (i : Item) : Reach :=
  if i.repeated then afterRun i.atom false t reach else afterOnce i.atom false t reach

/-- The positions at which a part of the text that fits the items can end. -/
def reach (r : Regex) (t : Text) : Reach := r.items.foldl (advance t) (everywhere t)

/-- Does some part of the text fit the expression? -/
def isFoundIn (r : Regex) (t : Text) : Bool :=
  if r.atEnd then (r.reach t).getLastD false else (r.reach t).any id

end Regex

/-! ### Patterns -/

namespace Pattern

/-- The spelling of the regular expression of a pattern: all its characters stand for themselves,
but a star becomes a point that is repeated. -/
def spelling (pattern : Text) (atEnd : Bool) : Text :=
  Text.replaceAll "\\*" ".*" (Regex.escape pattern) ++ if atEnd then "$" else ""

/-- Is the regular expression of the pattern found in the path? -/
def globs (pattern path : Text) (atEnd : Bool) : Bool :=
  match Regex.read? (spelling pattern atEnd) with
  | some r => r.isFoundIn path
  | none => false

/-- Does some part of the path fit the pattern? -/
def foundIn (pattern path : Text) : Bool :=
  if pattern.contains '*' then globs pattern path false else Text.occurs pattern path

/-- Does some part at the end of the path fit the pattern? -/
def foundAtEnd (pattern path : Text) : Bool :=
  if pattern.contains '*' then globs pattern path true else pattern.isSuffixOf path

end Pattern

end TemplateGuards
