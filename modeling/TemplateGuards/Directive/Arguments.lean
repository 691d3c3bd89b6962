import TemplateGuards.Text.Blank
import TemplateGuards.Text.Quotation

/-!
The arguments of a directive: a policy expression, and after it auxiliary expressions, with
commas between them.  A comma separates only outside string literals and outside brackets; a
closing bracket that no opening one precedes leaves the depth at zero, and the kinds of bracket
are not told apart.

* `splitArguments`: the pieces between the separating commas, trimmed;
* `Arguments`: the simple form (a policy alone) and the complex form;
* `Arguments.parse`: the arguments that a text spells, or the index of its first empty piece.
-/

namespace TemplateGuards

/-! ### Pieces -/

/-- The bracket depth after one more character outside literals. -/
def bracketDepth (depth : Nat) (c : Char) : Nat :=
  if c = '(' ∨ c = '[' ∨ c = '{' then depth + 1
  else if c = ')' ∨ c = ']' ∨ c = '}' then depth - 1
  else depth

/-- The pieces of the rest of an argument text, where `piece` is what has been read of the
current piece, last character first. -/
def splitFrom (q : Quotation) (depth : Nat) (piece : Text) : Text → List Text
  | [] => [Text.trim piece.reverse]
  | c :: cs =>
    if q.covers c then splitFrom (q.step c) depth (c :: piece) cs
    else if c = ',' ∧ depth = 0 then
      Text.trim piece.reverse :: splitFrom (q.step c) depth [] cs
    else splitFrom (q.step c) (bracketDepth depth c) (c :: piece) cs

/-- The pieces between the separating commas, each without white space at its ends. -/
def splitArguments (args : Text) : List Text := splitFrom .outside 0 [] args

theorem splitFrom_ne_nil (q : Quotation) (depth : Nat) (piece args : Text) :
    splitFrom q depth piece args ≠ [] := by
  induction args generalizing q depth piece with
  | nil => simp [splitFrom]
  | cons c cs ih =>
    unfold splitFrom
    split
    · exact ih _ _ _
    · split
      · simp
      · exact ih _ _ _

/-- There is always at least one piece. -/
theorem splitArguments_ne_nil (args : Text) : splitArguments args ≠ [] :=
  splitFrom_ne_nil _ _ _ _

/-! ### Classified arguments -/

/-- The arguments of a directive. -/
inductive Arguments
  /-- A policy expression alone. -/
  | simple (policy : Text)
  /-- A policy expression and auxiliary arguments. -/
  | complex (policy : Text) (aux : List Text)
deriving DecidableEq, Repr

namespace Arguments

/-- The policy expression. -/
def policy : Arguments → Text
  | simple p => p
  | complex p _ => p

/-- The auxiliary arguments; there are none in the simple form. -/
def aux : Arguments → List Text
  | simple _ => []
  | complex _ as => as

/-- The arguments that the pieces make up: one piece is a policy alone. -/
def ofPieces : List Text → Arguments
  | [] => simple []
  | [policy] => simple policy
  | policy :: aux => complex policy aux

/-- The arguments that a text spells.  An empty piece is refused, and the error is the index of
the first one, counted from 0. -/
def parse (args : Text) : Except Nat Arguments :=
  match (splitArguments args).findIdx? List.isEmpty with
  | some index => .error index
  | none => .ok (ofPieces (splitArguments args))

end Arguments

end TemplateGuards
