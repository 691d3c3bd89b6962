import TemplateGuards.Yaml.Cursor
import TemplateGuards.Yaml.Implicit

/-!
Writing YAML in block style: entries of maps, one a line, with lists in the column of their key
and maps two columns deeper.  A text is written plain where that reads back as the same text,
else in single marks, and a text with line feeds as a literal block; what none of these can hold
is written in double marks with escapes.

* `Style.ofText`: the way in which a text is written;
* `printEntry`, `printList`, `printMap`: a key with a text, a list of texts or a map of texts.
-/

namespace TemplateGuards.Yaml

/-! ### Choosing a style -/

/-- The ways of writing a text. -/
inductive Style
  | plain
  | singleQuoted
  | doubleQuoted
  | literal
deriving DecidableEq, Repr

/-- Can the character be shown as it is? -/
def isPrintable (c : Char) : Bool :=
  let n := c.toNat
  n == 0x0A || (0x20 ≤ n && n ≤ 0x7E) ||
    (0xA0 ≤ n && n != 0xFEFF && n != 0xFFFE && n != 0xFFFF)

/-- Does something in the text after its first character, which `previous` is, look like a key or
a comment? -/
def hasInnerMark (previous : Char) : Text → Bool
  | [] => false
  | c :: rest =>
    (c == ':' && endsWord rest) || (c == '#' && (isGap previous || isBreak previous)) ||
      hasInnerMark c rest

/-- Does the text look like anything but a plain scalar? -/
def hasMark : Text → Bool
  | [] => false
  | c :: rest =>
    (c :: rest).take 3 == ['-', '-', '-'] || (c :: rest).take 3 == ['.', '.', '.'] ||
      ",[]\x7b\x7d#&*!|>'\"%@\x60".toList.contains c ||
      ((c == '?' || c == ':' || c == '-') && endsWord rest) || hasInnerMark c rest

/-- Is there a character that satisfies `p` right before one that satisfies `q`? -/
def hasPair (p q : Char → Bool) : Text → Bool
  | c :: d :: rest => (p c && q d) || hasPair p q (d :: rest)
  | _ => false

/-- Is there a space or a line break at one of the ends? -/
def hasBareEnd (t : Text) : Bool :=
  t.head?.any (fun c => c == ' ' || isBreak c) || t.getLast?.any fun c => c == ' ' || isBreak c

/-- Can the text be written without escapes? -/
def needsNoEscape (t : Text) : Bool := t.all isPrintable && !hasPair (· == ' ') isBreak t

/-- Can the text be written plain? -/
def admitsPlain (t : Text) : Bool :=
  needsNoEscape t && !t.any isBreak && !hasBareEnd t && !hasMark t

/-- Can the text be written in single marks? -/
def admitsSingle (t : Text) : Bool := needsNoEscape t && !hasPair isBreak (· == ' ') t

/-- Can the text be written as a literal block? -/
def admitsLiteral (t : Text) : Bool := needsNoEscape t && t.getLast? != some ' '

/-- The way in which a text is written. -/
def Style.ofText (t : Text) : Style :=
  if t.contains '\n' then
    if admitsLiteral t then .literal else .doubleQuoted
  else if !isImplicit t && admitsPlain t then .plain
  else if admitsSingle t then .singleQuoted
  else .doubleQuoted

/-! ### Writing a text -/

/-- So many spaces. -/
def spaces (n : Nat) : Text := List.replicate n ' '

/-- The lines of a literal block or of a text in single marks, each that holds something indented;
`atStart` tells whether a line starts here. -/
def indentLines (indent : Nat) (atStart : Bool) : Text → Text
  | [] => []
  | c :: rest =>
    if isBreak c then c :: indentLines indent true rest
    else (if atStart then spaces indent else []) ++ c :: indentLines indent false rest

/-- The header of a literal block: a text that starts with white space gives its indentation, and
the sign tells what becomes of the line breaks at the end. -/
def literalHeader (t : Text) : Text :=
  let indentation := if t.head?.any (fun c => c == ' ' || isBreak c) then ['2'] else []
  let chomping :=
    match t.reverse with
    | [] => ['-']
    | [last] => if isBreak last then ['+'] else ['-']
    | last :: previous :: _ =>
      if !isBreak last then ['-'] else if isBreak previous then ['+'] else []
  '|' :: indentation ++ chomping

/-- A number in hexadecimal, in so many capital digits. -/
def hexDigits (width n : Nat) : Text :=
  let digits := (Nat.toDigits 16 n).map Char.toUpper
  List.replicate (width - digits.length) '0' ++ digits

/-- The one-letter escapes. -/
def escapeLetters : List (Char × Char) :=
  [('\x00', '0'), ('\x07', 'a'), ('\x08', 'b'), ('\t', 't'), ('\n', 'n'), ('\x0B', 'v'),
   ('\x0C', 'f'), ('\r', 'r'), ('\x1B', 'e'), ('"', '"'), ('\\', '\\'), ('\u0085', 'N'),
   ('\u00A0', '_'), ('\u2028', 'L'), ('\u2029', 'P')]

/-- A character in double marks. -/
def escapeChar (c : Char) : Text :=
  if isPrintable c && !isBreak c && c != '"' && c != '\\' then [c]
  else
    match escapeLetters.lookup c with
    | some letter => ['\\', letter]
    | none =>
      let n := c.toNat
      if n ≤ 0xFF then '\\' :: 'x' :: hexDigits 2 n
      else if n ≤ 0xFFFF then '\\' :: 'u' :: hexDigits 4 n
      else '\\' :: 'U' :: hexDigits 8 n

/-- A text as the value of something in the column `indent`, with the end of its line. -/
def printText (indent : Nat) (t : Text) : Text :=
  match Style.ofText t with
  | .plain => t ++ "\n"
  | .singleQuoted =>
    let doubled := t.flatMap fun c => if c == '\'' then ['\'', '\''] else [c]
    let last := if t.getLast?.any isBreak then spaces (indent + 2) else []
    "'" ++ indentLines (indent + 2) false doubled ++ last ++ "'\n"
  | .doubleQuoted => "\"" ++ t.flatMap escapeChar ++ "\"\n"
  | .literal =>
    let body := indentLines (indent + 2) true t
    literalHeader t ++ "\n" ++ body ++ (if t.getLast?.any isBreak then [] else ['\n'])

/-! ### Writing collections -/

/-- A key of a map in the column `indent` with a text as its value. -/
def printEntry (indent : Nat) (key value : Text) : Text :=
  spaces indent ++ key ++ ": " ++ printText indent value

/-- A key with a list of texts. -/
def printList (key : Text) (items : List Text) : Text :=
  if items.isEmpty then key ++ ": []\n"
  else key ++ ":\n" ++ items.flatMap fun item => ("- " ++ printText 0 item : Text)

/-- A key with a map of texts. -/
def printMap (key : Text) (entries : List (Text × Text)) : Text :=
  if entries.isEmpty then key ++ ": \x7b\x7d\n"
  else key ++ ":\n" ++ entries.flatMap fun (k, v) => printEntry 2 k v

end TemplateGuards.Yaml
