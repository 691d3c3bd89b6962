import TemplateGuards.Yaml.Cursor

/-!
The properties of YAML nodes and the directives before a document.  A node may carry an anchor, by
which references name it, and a tag; a tag is spelled by a handle and a suffix, or in full between
angle brackets.

* `readAnchor?`: the name of an anchor or of a reference;
* `readTag?`: the handle and the suffix of a tag;
* `readDirective?`: a directive with the rest of its line.
-/

namespace TemplateGuards.Yaml

/-- The characters of names: letters, digits, hyphens and underscores of ASCII. -/
def isNameChar (c : Char) : Bool := c.isAlphanum || c == '_' || c == '-'

/-! ### Anchors -/

/-- Does the text end a name, or go on with what may follow one directly? -/
def endsName (s : Text) : Bool := endsWord s || s.head?.any "?:,]\x7d%@\x60".toList.contains

/-- The name of an anchor or of a reference, the cursor standing at its indicator. -/
def readAnchor? (k : Cursor) : Option (Text × Cursor) :=
  let name := (k.rest.drop 1).takeWhile isNameChar
  let k' := k.past (name.length + 1)
  if !name.isEmpty && endsName k'.rest then some (name, k') else none

/-! ### Tags -/

/-- The value of a hexadecimal digit. -/
def hexDigit? (c : Char) : Option Nat :=
  if c.isDigit then some (c.toNat - '0'.toNat)
  else if 'a' ≤ c ∧ c ≤ 'f' then some (c.toNat - 'a'.toNat + 10)
  else if 'A' ≤ c ∧ c ≤ 'F' then some (c.toNat - 'A'.toNat + 10)
  else none

/-- The character with a number; surrogates and numbers too large have none. -/
def charOfNumber? (n : Nat) : Option Char := if n.isValidChar then some (Char.ofNat n) else none

/-- A byte written as a percent sign and two digits, and what follows it. -/
def readByte? : Text → Option (Nat × Text)
  | '%' :: c :: d :: rest => do return (16 * (← hexDigit? c) + (← hexDigit? d), rest)
  | _ => none

/-- So many continuation bytes of a character whose first bytes make up `n`. -/
def readContinuation? : Nat → Nat → Text → Option (Nat × Text)
  | 0, n, rest => some (n, rest)
  | count + 1, n, rest => do
    let (byte, rest) ← readByte? rest
    if byte / 64 = 2 then readContinuation? count (64 * n + byte % 64) rest else none

/-- A character whose bytes in UTF-8 are written with percent signs, and what follows it. -/
def readEncoded? (s : Text) : Option (Char × Text) := do
  let (byte, rest) ← readByte? s
  let (n, rest) ←
    if byte < 0x80 then some (byte, rest)
    else if byte / 32 = 6 then readContinuation? 1 (byte % 32) rest
    else if byte / 16 = 14 then readContinuation? 2 (byte % 16) rest
    else if byte / 8 = 30 then readContinuation? 3 (byte % 8) rest
    else none
  return ((charOfNumber? n).getD '\uFFFD', rest)

/-- The characters of a tag; those of flow collections belong to tags written in full only. -/
def isTagChar (inFull : Bool) (c : Char) : Bool :=
  isNameChar c || ";/?:@&=+$.!~*'()".toList.contains c || (inFull && ",[]".toList.contains c)

/-- The characters of a tag at the start of a text, and what follows them.  The first argument
bounds their number. -/
def tagCharsFrom? (inFull : Bool) : Nat → Text → Option (Text × Text)
  | 0, _ => none
  | _ + 1, [] => some ([], [])
  | fuel + 1, c :: rest =>
    if c == '%' then do
      let (decoded, rest) ← readEncoded? (c :: rest)
      let (more, rest) ← tagCharsFrom? inFull fuel rest
      return (decoded :: more, rest)
    else if isTagChar inFull c then do
      let (more, rest) ← tagCharsFrom? inFull fuel rest
      return (c :: more, rest)
    else some ([], c :: rest)

/-- The characters of a tag at the start of a text, and what follows them. -/
def tagChars? (inFull : Bool) (s : Text) : Option (Text × Text) :=
  tagCharsFrom? inFull (s.length + 1) s

/-- One or more characters of a tag at the start of a text, and what follows them. -/
def someTagChars? (inFull : Bool) (s : Text) : Option (Text × Text) :=
  (tagChars? inFull s).filter fun (chars, _) => !chars.isEmpty

/-- The handle and the suffix of a tag, what follows the exclamation mark being given, and what
follows the tag.  A tag written in full has no handle, and neither has the mark alone. -/
def tagParts? : Text → Option (Text × Text × Text)
  | '<' :: s => do
    let (suffix, rest) ← someTagChars? true s
    match rest with
    | '>' :: rest => return ([], suffix, rest)
    | _ => none
  | s => do
    let word := s.takeWhile isNameChar
    match s.drop word.length with
    | '!' :: rest =>
      let (suffix, rest) ← someTagChars? false rest
      return ('!' :: word ++ ['!'], suffix, rest)
    | rest =>
      let (more, rest) ← tagChars? false rest
      match word ++ more with
      | [] => return ([], ['!'], rest)
      | suffix => return (['!'], suffix, rest)

/-- The handle and the suffix of a tag, the cursor standing at its exclamation mark. -/
def readTag? (inFlow : Bool) (k : Cursor) : Option (Text × Text × Cursor) := do
  let (handle, suffix, rest) ← tagParts? (k.rest.drop 1)
  if endsWord rest || (inFlow && rest.head? == some ',') then
    return (handle, suffix, k.upTo rest)
  else none

/-! ### Directives -/

/-- What a directive says. -/
inductive Directive
  /-- The version of YAML. -/
  | version (major minor : Nat)
  /-- What a handle of tags stands for. -/
  | handle (handle expansion : Text)
deriving DecidableEq, Repr

/-- A number of at most nine digits, and what follows it. -/
def readNumber? (s : Text) : Option (Nat × Text) :=
  let digits := s.takeWhile Char.isDigit
  if digits.isEmpty || 9 < digits.length then none
  else some (digits.foldl (fun n c => 10 * n + (c.toNat - '0'.toNat)) 0, s.drop digits.length)

/-- The two numbers of a version, and what follows them. -/
def readVersion? (s : Text) : Option (Directive × Text) := do
  let (major, rest) ← readNumber? s
  match rest with
  | '.' :: rest =>
    let (minor, rest) ← readNumber? rest
    return (.version major minor, rest)
  | _ => none

/-- A handle with what it stands for, and what follows them. -/
def readHandle? : Text → Option (Directive × Text)
  | '!' :: s => do
    let word := s.takeWhile isNameChar
    let (handle, rest) ←
      match s.drop word.length with
      | '!' :: rest => some ('!' :: word ++ ['!'], rest)
      | rest => if word.isEmpty then some (['!'], rest) else none
    if !rest.head?.any isGap then none
    let (expansion, rest) ← someTagChars? true (rest.dropWhile isGap)
    if endsWord rest then return (.handle handle expansion, rest) else none
  | _ => none

/-- What follows a line of which nothing but white space and a comment may be left. -/
def endLine? (rest : Text) : Option Text :=
  let rest := rest.dropWhile isGap
  let rest := if rest.head? == some '#' then rest.dropWhile (!isBreak ·) else rest
  match rest with
  | [] => some []
  | _ => (lineBreak? rest).map (·.2)

/-- A directive, the cursor standing at its percent sign. -/
def readDirective? (k : Cursor) : Option (Directive × Cursor) := do
  let name := (k.rest.drop 1).takeWhile isNameChar
  let rest := k.rest.drop (name.length + 1)
  if !endsWord rest then none
  let rest := rest.dropWhile isGap
  let (directive, rest) ←
    if name = "YAML" then readVersion? rest
    else if name = "TAG" then readHandle? rest
    else none
  return (directive, ⟨← endLine? rest, k.line + 1, 0, false⟩)

end TemplateGuards.Yaml
