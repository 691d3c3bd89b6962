import TemplateGuards.Yaml.Basic

/-!
Implicit types: the texts that a reader of YAML may take for something else than a text when
they are written plain, that is for a null, a truth value or a number.  A text of digits with a
needless zero in front counts too.

* `isImplicit`: is the text such a text.
-/

namespace TemplateGuards.Yaml

/-! ### Truth values -/

/-- The words for truth values. -/
def truthWords : List Text := ["true", "True", "TRUE", "false", "False", "FALSE"]

/-! ### Whole numbers -/

/-- The value of a digit, in capital or small letters beyond nine. -/
def digitValue? (c : Char) : Option Nat :=
  if c.isDigit then some (c.toNat - '0'.toNat)
  else if c.isLower then some (c.toNat - 'a'.toNat + 10)
  else if c.isUpper then some (c.toNat - 'A'.toNat + 10)
  else none

/-- The number that one or more digits spell in a base. -/
def number? (base : Nat) (digits : Text) : Option Nat :=
  if digits.isEmpty then none
  else digits.foldlM (fun n c =>
    match digitValue? c with
    | some d => if d < base then some (base * n + d) else none
    | none => none) 0

/-- The base that two characters in front of the digits announce. -/
def announcedBase? : Text → Option (Nat × Text)
  | '0' :: 'x' :: digits => some (16, digits)
  | '0' :: 'o' :: digits => some (8, digits)
  | '0' :: 'b' :: digits => some (2, digits)
  | _ => none

/-- A text without a sign that may stand in front of it. -/
def withoutSign : Text → Text
  | '+' :: rest => rest
  | '-' :: rest => rest
  | rest => rest

/-- Digits after the announcement of their base, within 128 bits with the sign. -/
def isBased (t : Text) : Bool :=
  let limit := if t.head? == some '-' then Nat.pow 2 127 + 1 else Nat.pow 2 128
  match announcedBase? (withoutSign t) with
  | some (base, digits) => (number? base digits).any (· < limit)
  | none => false

/-! ### Decimal numbers -/

/-- The digits at the front of a text, and the rest. -/
def leadingDigits (t : Text) : Text × Text := (t.takeWhile Char.isDigit, t.dropWhile Char.isDigit)

/-- The exponent that ends a number; nothing is the exponent zero. -/
def exponent? : Text → Option Int
  | [] => some 0
  | e :: rest =>
    if e == 'e' || e == 'E' then
      (number? 10 (withoutSign rest)).map fun n => if rest.head? == some '-' then -n else n
    else none

/-- The significand and the exponent to base ten of a number without a sign. -/
def scientific? (t : Text) : Option (Nat × Int) := do
  let (whole, rest) := leadingDigits t
  let (fraction, rest) :=
    match rest with
    | '.' :: more => leadingDigits more
    | _ => ([], rest)
  let significand ← number? 10 (whole ++ fraction)
  let exponent ← exponent? rest
  return (significand, exponent - fraction.length)

/-- The least number that is rounded to no finite number of 64 bits. -/
def overflow : Nat := Nat.pow 2 1024 - Nat.pow 2 970

/-- Is the number a finite one of 64 bits when rounded?  Numbers far from the limit are settled by
their count of digits. -/
def isFinite (significand : Nat) (exponent : Int) : Bool :=
  let size := (Nat.toDigits 10 significand).length + exponent
  significand == 0 || size < 300 ||
    (size < 320 &&
      significand * Nat.pow 10 exponent.toNat < overflow * Nat.pow 10 (-exponent).toNat)

/-- A decimal number, with or without a point and an exponent, within the range of 64 bits. -/
def isDecimal (t : Text) : Bool :=
  (scientific? (withoutSign t)).any fun (significand, exponent) => isFinite significand exponent

/-- Digits with a needless zero in front, and in front of them a sign or nothing. -/
def isPadded (t : Text) : Bool :=
  match withoutSign t with
  | '0' :: digits => digits.all Char.isDigit
  | _ => false

/-- The spellings of the numbers that are none. -/
def unbounded : List Text :=
  [".inf", ".Inf", ".INF", "+.inf", "+.Inf", "+.INF", "-.inf", "-.Inf", "-.INF",
   ".nan", ".NaN", ".NAN"]

/-- May the text be taken for something else than a text when it is written plain? -/
def isImplicit (t : Text) : Bool :=
  spellsNull t || truthWords.contains t || isDecimal t || isPadded t || isBased t ||
    unbounded.contains t

end TemplateGuards.Yaml
