import Mathlib.Data.List.Basic
import TemplateGuards.Json

/-!
Strings of JSON read back, in the whole of their written form: letters behind a backslash, and
codes of four hexadecimal digits, two of them where they stand for one character together.

* `Json.character?`, `Json.string?`: a character, and a string up to its closing quotation mark;
* `Json.character?_escape`: a character is read as it is written;
* `Json.string?_escape`: **a string is read as it is written**, whatever follows it.
-/

namespace TemplateGuards

namespace Json

/-! ### The written form -/

/-- The value of a hexadecimal digit. -/
def hexDigit? (c : Char) : Option Nat :=
  if c.isDigit then some (c.toNat - '0'.toNat)
  else if 'a' ≤ c ∧ c ≤ 'f' then some (c.toNat - 'a'.toNat + 10)
  else if 'A' ≤ c ∧ c ≤ 'F' then some (c.toNat - 'A'.toNat + 10)
  else none

/-- The code that four hexadecimal digits spell, and the rest of the text. -/
def code? : Text → Option (Nat × Text)
  | a :: b :: c :: d :: rest => do
    let high := (← hexDigit? a) * 16 + (← hexDigit? b)
    let low := (← hexDigit? c) * 16 + (← hexDigit? d)
    return (high * 256 + low, rest)
  | _ => none

/-- Is the code the first half of a pair that stands for one character? -/
def isHigh (code : Nat) : Bool := 0xD800 ≤ code ∧ code < 0xDC00

/-- Is the code the second half of a pair that stands for one character? -/
def isLow (code : Nat) : Bool := 0xDC00 ≤ code ∧ code < 0xE000

/-- The character that a code stands for, or two where they are a pair, and the rest of the text. -/
def coded? (t : Text) : Option (Char × Text) := do
  let (code, rest) ← code? t
  if isHigh code then
    match rest with
    | '\\' :: 'u' :: rest' =>
      let (low, rest'') ← code? rest'
      if isLow low then
        return (Char.ofNat (0x10000 + (code - 0xD800) * 0x400 + (low - 0xDC00)), rest'')
      else none
    | _ => none
  else if isLow code then none
  else return (Char.ofNat code, rest)

/-- The character that a letter behind a backslash stands for. -/
def unescape? : Char → Option Char
  | '"' => some '"'
  | '\\' => some '\\'
  | '/' => some '/'
  | 'b' => some '\x08'
  | 'f' => some '\x0C'
  | 'n' => some '\n'
  | 'r' => some '\r'
  | 't' => some '\t'
  | _ => none

/-- The first character of a string as it is written, and the rest of the text. -/
def character? : Text → Option (Char × Text)
  | '\\' :: 'u' :: t => coded? t
  | '\\' :: e :: t => (unescape? e).map (·, t)
  | c :: t => if c = '"' ∨ c = '\\' ∨ c.toNat < 0x20 then none else some (c, t)
  | [] => none

lemma length_le_of_code? {t rest : Text} {code : Nat} (h : code? t = some (code, rest)) :
    rest.length ≤ t.length := by
  unfold code? at h
  split at h
  · simp only [Option.bind_eq_bind, Option.bind_eq_some_iff, Option.pure_def, Option.some.injEq,
      Prod.mk.injEq] at h
    obtain ⟨_, _, _, _, _, _, _, _, _, rfl⟩ := h
    simp only [List.length_cons]
    omega
  · cases h

lemma length_le_of_coded? {t rest : Text} {c : Char} (h : coded? t = some (c, rest)) :
    rest.length ≤ t.length := by
  obtain ⟨⟨code, rest₁⟩, hcode, h⟩ := Option.bind_eq_some_iff.mp h
  have hle := length_le_of_code? hcode
  simp only at h
  split at h
  · split at h
    · next rest₂ =>
        obtain ⟨⟨low, rest₃⟩, hlow, h⟩ := Option.bind_eq_some_iff.mp h
        have hle' := length_le_of_code? hlow
        simp only at h
        split at h
        · obtain ⟨-, rfl⟩ := Prod.mk.inj (Option.some.inj h)
          simp only [List.length_cons] at hle
          omega
        · cases h
    · cases h
  · split at h
    · cases h
    · obtain ⟨-, rfl⟩ := Prod.mk.inj (Option.some.inj h)
      exact hle

/-- A character takes up some of the text. -/
lemma length_lt_of_character? {t rest : Text} {c : Char} (h : character? t = some (c, rest)) :
    rest.length < t.length := by
  unfold character? at h
  split at h
  · have hle := length_le_of_coded? h
    simp only [List.length_cons]
    omega
  · obtain ⟨d, -, heq⟩ := Option.map_eq_some_iff.mp h
    cases heq
    simp only [List.length_cons]
    omega
  · split at h
    · cases h
    · cases h
      exact Nat.lt_succ_self _
  · cases h

/-- A string up to its closing quotation mark, and the rest of the text. -/
def string? (t : Text) : Option (Text × Text) :=
  if t.head? = some '"' then some ([], t.tail)
  else
    match _h : character? t with
    | some (c, rest) => (string? rest).map fun (cs, rest') => (c :: cs, rest')
    | none => none
termination_by t.length
decreasing_by exact length_lt_of_character? _h

lemma string?_eq (t : Text) :
    string? t =
      if t.head? = some '"' then some ([], t.tail)
      else
        (character? t).bind fun (c, rest) =>
          (string? rest).map fun (cs, rest') => (c :: cs, rest') := by
  rw [string?]
  split
  · rfl
  · split
    · next hc => rw [hc, Option.bind_some]
    · next hc => rw [hc, Option.bind_none]

lemma length_le_of_string? {t s rest : Text} (h : string? t = some (s, rest)) :
    rest.length ≤ t.length := by
  induction t using string?.induct generalizing s with
  | case1 t hquote =>
      rw [string?_eq, if_pos hquote] at h
      cases h
      rw [List.length_tail]
      omega
  | case2 t hquote c rest' hc ih =>
      rw [string?_eq, if_neg hquote, hc, Option.bind_some] at h
      obtain ⟨⟨cs, rest''⟩, hrest, heq⟩ := Option.map_eq_some_iff.mp h
      cases heq
      exact Nat.le_of_lt (Nat.lt_of_le_of_lt (ih hrest) (length_lt_of_character? hc))
  | case3 t hquote hc =>
      rw [string?_eq, if_neg hquote, hc] at h
      cases h

/-! ### Strings read back -/

/-- A letter behind a backslash is read as the character that it is written for. -/
lemma unescape?_of_letterEscape? {c letter : Char} (h : letterEscape? c = some letter) :
    letter ≠ 'u' ∧ unescape? letter = some c := by
  unfold letterEscape? at h
  split at h <;> cases h <;> decide

lemma hexDigit?_digitChar : ∀ d < 16, hexDigit? (Nat.digitChar d) = some d := by decide

lemma coded?_control {n : Nat} (hn : n < 0x20) (rest : Text) :
    coded? ('0' :: '0' :: Nat.digitChar (n / 16) :: Nat.digitChar (n % 16) :: rest) =
      some (Char.ofNat n, rest) := by
  have hcode : code? ('0' :: '0' :: Nat.digitChar (n / 16) :: Nat.digitChar (n % 16) :: rest) =
      some (n, rest) := by
    have hhigh := hexDigit?_digitChar (n / 16) (by omega)
    have hlow := hexDigit?_digitChar (n % 16) (by omega)
    have hzero : hexDigit? '0' = some 0 := by decide
    simp only [code?, hzero, hhigh, hlow, Option.bind_eq_bind, Option.bind_some, Option.pure_def,
      Option.some.injEq, Prod.mk.injEq, and_true]
    omega
  have hhigh : isHigh n = false := by simp [isHigh]; omega
  have hlow : isLow n = false := by simp [isLow]; omega
  simp [coded?, hcode, hhigh, hlow]

/-- A character is read as it is written. -/
lemma character?_escape (c : Char) (rest : Text) :
    character? (escape c ++ rest) = some (c, rest) := by
  unfold escape
  split
  · next letter h =>
      obtain ⟨hu, hc⟩ := unescape?_of_letterEscape? h
      simp [character?, hc]
  · next h =>
      split
      · next hcontrol =>
          simp [character?, coded?_control hcontrol]
      · next hcontrol =>
          have hquote : c ≠ '"' := by
            rintro rfl
            cases h
          have hslash : c ≠ '\\' := by
            rintro rfl
            cases h
          simp [character?, hquote, hslash, hcontrol]

lemma head?_escape_append_ne (c : Char) (t : Text) : (escape c ++ t).head? ≠ some '"' := by
  unfold escape
  split
  · simp
  · next h =>
      split
      · simp
      · rw [List.singleton_append, List.head?_cons, ne_eq, Option.some.injEq]
        rintro rfl
        cases h

/-- **A string is read as it is written.** -/
lemma string?_escape (s t : Text) : string? (s.flatMap escape ++ '"' :: t) = some (s, t) := by
  induction s with
  | nil =>
      rw [List.flatMap_nil, List.nil_append, string?_eq]
      rfl
  | cons c s ih =>
      rw [List.flatMap_cons, List.append_assoc, string?_eq, if_neg (head?_escape_append_ne c _),
        character?_escape, Option.bind_some]
      simp only [ih, Option.map_some]

end Json

end TemplateGuards
