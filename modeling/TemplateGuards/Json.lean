import TemplateGuards.Text

/-!
JSON values and their written form: members and items each on a line of their own, two columns
deeper than what holds them, members in the order given, and an empty list as two brackets.  In a
string only the quotation mark, the backslash and the characters below the space are escaped.

* `Json.escape`: a character inside a string;
* `Json.print`: the written form of a value.
-/

namespace TemplateGuards

/-- A JSON value; numbers are natural. -/
inductive Json
  | null
  | bool (value : Bool)
  | number (value : Nat)
  | string (value : Text)
  | array (items : List Json)
  | object (members : List (Text × Json))

namespace Json

/-! ### Strings -/

/-- The escapes of one letter. -/
def letterEscape? : Char → Option Char
  | '"' => some '"'
  | '\\' => some '\\'
  | '\x08' => some 'b'
  | '\t' => some 't'
  | '\n' => some 'n'
  | '\x0C' => some 'f'
  | '\r' => some 'r'
  | _ => none

/-- A character inside a string. -/
def escape (c : Char) : Text :=
  match letterEscape? c with
  | some letter => ['\\', letter]
  | none =>
    if c.toNat < 0x20 then
      ['\\', 'u', '0', '0', Nat.digitChar (c.toNat / 16), Nat.digitChar (c.toNat % 16)]
    else [c]

/-- The written form of a string. -/
def printString (t : Text) : Text := '"' :: t.flatMap escape ++ "\""

/-! ### Values -/

/-- The start of a line at a depth of nesting. -/
def newline (depth : Nat) : Text := '\n' :: List.replicate (2 * depth) ' '

mutual

/-- The written form of a value that lies at a depth of nesting. -/
def printAt (depth : Nat) : Json → Text
  | null => "null"
  | bool true => "true"
  | bool false => "false"
  | number n => Text.ofNat n
  | string t => printString t
  | array [] => "[]"
  | array (item :: items) =>
    "[" ++ newline (depth + 1) ++ printAt (depth + 1) item ++ printItems (depth + 1) items ++
      newline depth ++ "]"
  | object [] => "\x7b\x7d"
  | object ((name, value) :: members) =>
    "\x7b" ++ newline (depth + 1) ++ printString name ++ ": " ++ printAt (depth + 1) value ++
      printMembers (depth + 1) members ++ newline depth ++ "\x7d"

/-- The items of an array after the first. -/
def printItems (depth : Nat) : List Json → Text
  | [] => []
  | item :: items => "," ++ newline depth ++ printAt depth item ++ printItems depth items

/-- The members of an object after the first. -/
def printMembers (depth : Nat) : List (Text × Json) → Text
  | [] => []
  | (name, value) :: members =>
    "," ++ newline depth ++ printString name ++ ": " ++ printAt depth value ++
      printMembers depth members

end

/-- The written form of a value. -/
def print (j : Json) : Text := j.printAt 0

end Json

end TemplateGuards
