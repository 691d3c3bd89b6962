import TemplateGuards.Dialect.Basic
import TemplateGuards.Directive.Pairing

/-!
The compilation of a template into a dialect.  Ordinary text is copied, every opener becomes the
dialect's conditional, every end marker its close, and the preamble goes once in front of a
template that has directives.  A template without directives stays as it is.

* `Dialect.render`: the text of the pieces;
* `compile`: the compiled template with the nestings to warn of, or the fault that stops it.
-/

namespace TemplateGuards

namespace Dialect

/-- The text of a piece. -/
def renderPiece (d : Dialect) : Piece → Text
  | .text text => text
  | .opens kind arguments => d.renderOpener kind arguments
  | .closes => d.close

/-- The text of the pieces. -/
def render (d : Dialect) (pieces : List Piece) : Text := pieces.flatMap d.renderPiece

@[simp] theorem render_nil (d : Dialect) : d.render [] = [] := rfl

@[simp] theorem render_cons (d : Dialect) (piece : Piece) (pieces : List Piece) :
    d.render (piece :: pieces) = d.renderPiece piece ++ d.render pieces := rfl

@[simp] theorem render_append (d : Dialect) (ps qs : List Piece) :
    d.render (ps ++ qs) = d.render ps ++ d.render qs :=
  List.flatMap_append

end Dialect

/-- A compiled template. -/
structure Compiled where
  text : Text
  warnings : List Nested
deriving DecidableEq, Repr

/-- A text that needs no compilation. -/
def Compiled.unchanged (text : Text) : Compiled := ⟨text, []⟩

/-- The compilation of a template into a dialect under a nesting policy. -/
def compile (d : Dialect) (nesting : Nesting) (source : Text) : Except Fault Compiled := do
  let outline ← Outline.ofText source
  if outline.marked.isEmpty then return .unchanged source
  let pairing ← Pairing.ofOutline nesting outline
  return ⟨d.preamble ++ d.render pairing.pieces, pairing.warnings⟩

end TemplateGuards
