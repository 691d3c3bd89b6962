import TemplateGuards.Directive.Fault
import TemplateGuards.Directive.Outline

/-!
Pairing: every opener of a template is matched with the end marker that closes it.  The markers
are admitted one by one, in source order, while the openers that still wait for their end are
kept innermost first.  What comes out is independent of any dialect: the pieces of the template
in order, with the arguments of each opener read, and the warnings on nesting.

* `Marker.admit`: one marker against the openers that wait;
* `Pairing.ofMarked`: all markers, starting from the openers that wait;
* `Pairing.ofOutline`: the pairing of an outlined template, or the first fault.
-/

namespace TemplateGuards

/-- An opener that waits for its end. -/
structure Waiting where
  kind : Kind
  position : Position
deriving DecidableEq, Repr

/-- A piece of a template whose directives are in order. -/
inductive Piece
  /-- Ordinary text. -/
  | text (text : Text)
  /-- A directive opens here. -/
  | opens (kind : Kind) (arguments : Arguments)
  /-- The innermost open directive ends here. -/
  | closes
deriving DecidableEq, Repr

/-- The arguments of an opener; an empty policy and an empty argument are different faults. -/
def readArguments (kind : Kind) (args : Text) (position : Position) : Except Fault Arguments :=
  match Arguments.parse args with
  | .ok arguments => .ok arguments
  | .error 0 => .error (.emptyPolicy kind position)
  | .error index => .error (.emptyArgument kind index position)

/-- The innermost waiting opener of a kind. -/
def enclosing? (kind : Kind) (waiting : List Waiting) : Option Waiting :=
  waiting.find? (·.kind = kind)

/-- The nestings that the policy warns of when an opener comes in, or the fault of a denied one. -/
def Nesting.judge (nesting : Nesting) (kind : Kind) (position : Position) (waiting : List Waiting) :
    Except Fault (List Nested) :=
  match enclosing? kind waiting, nesting with
  | some outer, .warn => .ok [⟨kind, position, outer.position⟩]
  | some outer, .deny => .error (.nested ⟨kind, position, outer.position⟩)
  | _, _ => .ok []

/-- What a marker makes of the waiting openers: the piece that it is, the openers that wait after
it, and the nestings to warn of. -/
def Marker.admit (nesting : Nesting) (waiting : List Waiting) :
    Marker → Except Fault (Piece × List Waiting × List Nested)
  | .opener kind args place => do
    let arguments ← readArguments kind args place.position
    let warnings ← nesting.judge kind place.position waiting
    return (.opens kind arguments, ⟨kind, place.position⟩ :: waiting, warnings)
  | .ender kind place =>
    match waiting with
    | [] => .error (.unexpectedEnd kind place.position)
    | inner :: outer =>
      if inner.kind = kind then .ok (.closes, outer, [])
      else .error (.mismatchedEnd inner.kind kind inner.position place.position)

/-- A template whose directives are in order: its pieces, and the nestings to warn of. -/
structure Pairing where
  pieces : List Piece
  warnings : List Nested
deriving DecidableEq, Repr

namespace Pairing

/-- The pairing of the rest of a template, `waiting` being the openers that wait before it. -/
def ofMarked (nesting : Nesting) (tail : Text) (waiting : List Waiting) :
    List Marked → Except Fault Pairing
  | [] =>
    match waiting with
    | [] => .ok ⟨[.text tail], []⟩
    | inner :: _ => .error (.unclosed inner.kind inner.position)
  | m :: ms => do
    let (piece, waiting', warnings) ← m.marker.admit nesting waiting
    let rest ← ofMarked nesting tail waiting' ms
    return ⟨.text m.gap :: piece :: rest.pieces, warnings ++ rest.warnings⟩

/-- The pairing of an outlined template. -/
def ofOutline (nesting : Nesting) (o : Outline) : Except Fault Pairing :=
  ofMarked nesting o.tail [] o.marked

end Pairing

end TemplateGuards
