import TemplateGuards.Yaml.Property

/-!
The scalars of YAML: plain, quoted with one of the two marks, and block scalars.  Each reader
takes the cursor at the scalar and gives its text with the cursor after it, or nothing where the
scalar is malformed.

* `readPlain?`: a plain scalar, up to what cannot belong to it;
* `readQuoted?`: a scalar between quotation marks;
* `readBlock?`: a literal or folded block scalar.
-/

namespace TemplateGuards.Yaml

/-! ### Plain scalars -/

/-- The characters that structure flow collections. -/
def isFlowMark (c : Char) : Bool :=
  c == ',' || c == '[' || c == ']' || c == '{' || c == '}'

/-- The characters that no plain scalar starts with, whatever follows. -/
def isReserved (c : Char) : Bool :=
  isFlowMark c || c == '#' || c == '&' || c == '*' || c == '!' || c == '|' || c == '>' ||
    c == '\'' || c == '"' || c == '%' || c == '@' || c == '\x60'

/-- Can a plain scalar start here? -/
def startsPlain (inFlow : Bool) : Text → Bool
  | [] => false
  | c :: rest =>
    if isReserved c || isGap c || isBreak c then false
    else if c == '-' then !endsWord rest
    else if c == '?' || c == ':' then !inFlow && !endsWord rest
    else true

/-- Does a plain scalar end before this character, `rest` following it? -/
def endsPlain (inFlow : Bool) (c : Char) (rest : Text) : Bool :=
  (c == ':' && endsWord rest) || (inFlow && isFlowMark c)

/-- Is there a colon that a flow collection does not allow inside a plain scalar? -/
def isStrayColon (inFlow : Bool) (c : Char) (rest : Text) : Bool :=
  inFlow && c == ':' && rest.head?.any fun d => isFlowMark d || d == '?'

/-- The rest of a plain scalar whose continuation lines need at least `floor` columns.  Here
`out` is its text so far, last character first, and `fold` the white space after that. -/
def plainFrom (inFlow : Bool) (floor : Nat) (out : Text) (fold : Fold) (line column : Nat) :
    Text → Option (Text × Cursor)
  | [] => some (out.reverse, ⟨[], line, column, fold.isBroken⟩)
  | '\r' :: '\n' :: rest =>
    plainFrom inFlow floor out (fold.addBreak ['\n']) (line + 1) 0 rest
  | c :: rest =>
    if isBreak c then
      let text := if c == '\u2028' || c == '\u2029' then [c] else ['\n']
      plainFrom inFlow floor out (fold.addBreak text) (line + 1) 0 rest
    else if isGap c then
      if fold.isBroken && c == '\t' && column < floor then none
      else plainFrom inFlow floor out (fold.addGap c) line (column + 1) rest
    else
      let ends :=
        (fold.isBroken && !inFlow && column < floor) || (!fold.isNone && c == '#') ||
          (column == 0 && startsMarker (c :: rest)) || endsPlain inFlow c rest
      if isStrayColon inFlow c rest then none
      else if ends then some (out.reverse, ⟨c :: rest, line, column, fold.isBroken⟩)
      else plainFrom inFlow floor (c :: (fold.text.reverse ++ out)) .none line (column + 1) rest

/-- A plain scalar. -/
def readPlain? (inFlow : Bool) (floor : Nat) (k : Cursor) : Option (Text × Cursor) :=
  plainFrom inFlow floor [] .none k.line k.column k.rest

/-! ### Quoted scalars -/

/-- The character that a one-letter escape stands for. -/
def escape? : Char → Option Char
  | '0' => some '\x00'
  | 'a' => some '\x07'
  | 'b' => some '\x08'
  | 't' => some '\t'
  | '\t' => some '\t'
  | 'n' => some '\n'
  | 'v' => some '\x0B'
  | 'f' => some '\x0C'
  | 'r' => some '\r'
  | 'e' => some '\x1B'
  | ' ' => some ' '
  | '"' => some '"'
  | '/' => some '/'
  | '\\' => some '\\'
  | 'N' => some '\u0085'
  | '_' => some '\u00A0'
  | 'L' => some '\u2028'
  | 'P' => some '\u2029'
  | _ => none

/-- How many digits follow the letter of a numeric escape. -/
def escapeDigits : Char → Nat
  | 'x' => 2
  | 'u' => 4
  | 'U' => 8
  | _ => 0

/-- The number that hexadecimal digits spell. -/
def hexValue? (digits : Text) : Option Nat :=
  digits.foldlM (fun n c => (hexDigit? c).map (16 * n + ·)) 0

/-- What an escape is, given what follows its backslash: the character it stands for and the
number of characters that spell it. -/
def readEscape? : Text → Option (Char × Nat)
  | [] => none
  | c :: rest =>
    match escape? c with
    | some d => some (d, 1)
    | none =>
      let n := escapeDigits c
      if n = 0 ∨ rest.length < n then none
      else do
        let d ← charOfNumber? (← hexValue? (rest.take n))
        return (d, n + 1)

/-- The rest of a scalar in quotation marks.  Here `skip` characters at the front belong to an
escape already read, which may be a line break, `out` is the text so far, last character first,
and `fold` the white space after that. -/
def quotedFrom (mark : Char) (out : Text) (fold : Fold) (line column skip : Nat) :
    Text → Option (Text × Cursor)
  | [] => none
  | c :: rest =>
    match skip with
    | skip + 1 =>
      quotedFrom mark out fold line (if isBreak c then 0 else column + 1) skip rest
    | 0 =>
      if isBreak c then
        if c == '\r' && rest.head? == some '\n' then
          quotedFrom mark out fold line column 0 rest
        else
          let text := if c == '\u2028' || c == '\u2029' then [c] else ['\n']
          quotedFrom mark out (fold.addBreak text) (line + 1) 0 0 rest
      else if isGap c then quotedFrom mark out (fold.addGap c) line (column + 1) 0 rest
      else if column == 0 && startsMarker (c :: rest) then none
      else
        let out := fold.text.reverse ++ out
        if c == mark then
          if mark == '\'' && rest.head? == some '\'' then
            quotedFrom mark ('\'' :: out) .none line (column + 1) 1 rest
          else some (out.reverse, ⟨rest, line, column + 1, false⟩)
        else if mark == '"' && c == '\\' then
          if rest.head?.any isBreak then
            let width := if rest.take 2 == ['\r', '\n'] then 2 else 1
            quotedFrom mark out (.breaks [] []) (line + 1) 0 width rest
          else
            match readEscape? rest with
            | some (d, n) => quotedFrom mark (d :: out) .none line (column + 1) n rest
            | none => none
        else quotedFrom mark (c :: out) .none line (column + 1) 0 rest

/-- A scalar between quotation marks, the cursor standing at the first of them. -/
def readQuoted? (mark : Char) (k : Cursor) : Option (Text × Cursor) :=
  quotedFrom mark [] .none k.line (k.column + 1) 0 (k.rest.drop 1)

/-! ### Block scalars -/

/-- What becomes of the line breaks at the end of a block scalar. -/
inductive Chomping
  | strip
  | clip
  | keep
deriving DecidableEq, Repr

/-- The chomping that a header's sign asks for. -/
def chomping? : Char → Option Chomping
  | '-' => some .strip
  | '+' => some .keep
  | _ => none

/-- The header of a block scalar after its indicator: the chomping, the number of columns by
which the text is indented if it is given, and what follows the header on its line. -/
def readHeader? : Text → Option (Chomping × Option Nat × Text)
  | [] => some (.clip, none, [])
  | c :: rest =>
    match chomping? c with
    | some chomping =>
      match rest with
      | d :: rest' =>
        if d == '0' then none
        else if d.isDigit then some (chomping, some (d.toNat - '0'.toNat), rest')
        else some (chomping, none, rest)
      | [] => some (chomping, none, [])
    | none =>
      if c == '0' then none
      else if c.isDigit then
        match rest with
        | d :: rest' =>
          match chomping? d with
          | some chomping => some (chomping, some (c.toNat - '0'.toNat), rest')
          | none => some (.clip, some (c.toNat - '0'.toNat), rest)
        | [] => some (.clip, some (c.toNat - '0'.toNat), [])
      else some (.clip, none, c :: rest)

/-- The empty lines of a block scalar and the indentation after them. -/
structure Indentation where
  /-- The text of the line breaks. -/
  breaks : Text
  line : Nat
  column : Nat
  /-- The largest column to which spaces have led. -/
  deepest : Nat
  rest : Text

/-- Past the empty lines of a block scalar and the indentation after them.  No tab may stand
where the indentation is read. -/
def readIndentation (indent : Option Nat) (breaks : Text) (line column deepest : Nat) :
    Text → Option Indentation
  | [] => some ⟨breaks, line, column, deepest, []⟩
  | '\r' :: '\n' :: rest => readIndentation indent (breaks ++ ['\n']) (line + 1) 0 deepest rest
  | c :: rest =>
    let free := indent.all (column < ·)
    if c == ' ' && free then
      readIndentation indent breaks line (column + 1) (max deepest (column + 1)) rest
    else if c == '\t' && free then none
    else if isBreak c then
      let text := if c == '\u2028' || c == '\u2029' then [c] else ['\n']
      readIndentation indent (breaks ++ text) (line + 1) 0 deepest rest
    else some ⟨breaks, line, column, deepest, c :: rest⟩

/-- The break between two lines of a block scalar.  In a folded scalar a single break between two
lines that start with no blank is a space. -/
def blockBreak (folded : Bool) (first more : Text) (previousBlank nextBlank : Bool) : Text :=
  if folded && first == ['\n'] && !previousBlank && !nextBlank then
    if more.isEmpty then [' '] else more
  else first ++ more

/-- The lines of a block scalar from one of its indentation on.  Here `out` is the text so far,
`first` the break after its last line and `i` what follows that break. -/
def blockLines (fuel : Nat) (folded : Bool) (chomping : Chomping) (indent : Nat)
    (out first : Text) (previousBlank : Bool) (i : Indentation) : Option (Text × Cursor) :=
  match fuel with
  | 0 => none
  | fuel + 1 =>
    if i.column = indent ∧ i.rest ≠ [] then
      let nextBlank := i.rest.head?.any isGap
      let content := i.rest.takeWhile (!isBreak ·)
      let out := out ++ blockBreak folded first i.breaks previousBlank nextBlank ++ content
      match lineBreak? (i.rest.drop content.length) with
      | some (text, rest) =>
        match readIndentation (some indent) [] (i.line + 1) 0 0 rest with
        | some i' => blockLines fuel folded chomping indent out text nextBlank i'
        | none => none
      | none =>
        blockLines fuel folded chomping indent out [] nextBlank
          ⟨[], i.line, i.column + content.length, 0, []⟩
    else
      let tail :=
        match chomping with
        | .strip => []
        | .clip => first
        | .keep => first ++ i.breaks
      some (out ++ tail, ⟨i.rest, i.line, i.column, true⟩)

/-- A block scalar, the cursor standing at its indicator.  Its text needs at least `floor`
columns. -/
def readBlock? (folded : Bool) (floor : Nat) (k : Cursor) : Option (Text × Cursor) := do
  let (chomping, increment, rest) ← readHeader? (k.rest.drop 1)
  let rest ← endLine? rest
  let given := increment.map (floor - 1 + ·)
  let i ← readIndentation given [] (k.line + 1) 0 0 rest
  let indent := given.getD (max 1 (max floor i.deepest))
  blockLines (rest.length + 2) folded chomping indent [] [] false i

end TemplateGuards.Yaml
