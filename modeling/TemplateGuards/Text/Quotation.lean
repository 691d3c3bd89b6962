import TemplateGuards.Text

/-!
Quotation: which characters of an expression belong to a string literal.  A literal opens with
one of the two quotation marks and closes with the next mark of its own kind that no backslash
escapes.  A reader carries a `Quotation` along and asks it, before each character, whether that
character belongs to a literal (`Quotation.covers`) and what holds after it (`Quotation.step`).

* `Quotation.closing?`: the text up to the parenthesis that balances one already read;
* `Quotation.closing?_eq_some`: what is read and what is left make up the text.
-/

namespace TemplateGuards

/-- Where a reader of an expression stands with respect to its string literals. -/
inductive Quotation
  /-- Outside every literal. -/
  | outside
  /-- Inside a literal that `mark` opened. -/
  | inside (mark : Char)
  /-- Inside a literal that `mark` opened, right after a backslash. -/
  | escaped (mark : Char)
deriving DecidableEq, Repr

namespace Quotation

/-- The characters that open a literal. -/
def isMark (c : Char) : Bool := c == '\'' || c == '"'

/-- The quotation after one more character. -/
def step : Quotation → Char → Quotation
  | outside, c => if isMark c then inside c else outside
  | inside mark, c => if c = '\\' then escaped mark else if c = mark then outside else inside mark
  | escaped mark, _ => inside mark

/-- Does the next character belong to a literal?  Both marks of a literal do. -/
def covers : Quotation → Char → Bool
  | outside, c => isMark c
  | _, _ => true

/-! ### Balanced parentheses -/

/-- The text up to the `)` that balances an opening parenthesis already read, and what follows
that `)`.  Parentheses inside literals do not count.  Here `depth` is the number of parentheses
opened since, and `seen` what has been read since, last character first. -/
def closing? (q : Quotation) (depth : Nat) (seen : Text) : Text → Option (Text × Text)
  | [] => none
  | c :: cs =>
    if q.covers c then closing? (q.step c) depth (c :: seen) cs
    else if c = '(' then closing? (q.step c) (depth + 1) (c :: seen) cs
    else if c = ')' then
      match depth with
      | 0 => some (seen.reverse, cs)
      | deeper + 1 => closing? (q.step c) deeper (c :: seen) cs
    else closing? (q.step c) depth (c :: seen) cs

/-- What is read up to the balancing parenthesis and what is left after it make up the text. -/
theorem closing?_eq_some {q : Quotation} {depth : Nat} {seen s inner rest : Text}
    (h : closing? q depth seen s = some (inner, rest)) :
    seen.reverse ++ s = inner ++ ')' :: rest := by
  induction s generalizing q depth seen with
  | nil => simp [closing?] at h
  | cons c cs ih =>
    unfold closing? at h
    split at h
    · simpa using ih h
    · split at h
      · simpa using ih h
      · split at h
        · next hc =>
          split at h
          · obtain ⟨rfl, rfl⟩ : seen.reverse = inner ∧ cs = rest := by simpa using h
            simp [hc]
          · simpa using ih h
        · simpa using ih h

end Quotation

/-- The text up to the `)` that balances an opening parenthesis right before `s`, and what
follows that `)`. -/
def closingParen? (s : Text) : Option (Text × Text) := Quotation.outside.closing? 0 [] s

/-- What is read up to the balancing parenthesis and what is left after it make up the text. -/
theorem closingParen?_eq_some {s inner rest : Text} (h : closingParen? s = some (inner, rest)) :
    s = inner ++ ')' :: rest := by
  simpa using Quotation.closing?_eq_some h

end TemplateGuards
