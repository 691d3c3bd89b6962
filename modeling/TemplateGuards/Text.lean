/-!
Text is a list of characters, so that every scan in this library is a recursion on a list and
every law about it is a law about lists.  A string literal stands for its characters wherever
a text is expected.

* `Text.byteSize`: the length of a text in UTF-8;
* `Text.splitOn`: the parts of a text between the occurrences of a separator;
* `Text.cut?`: the text before and the text after the first occurrence of a separator;
* `Text.occurs`: does one text occur somewhere in another;
* `Text.replaceAll`: exchange every occurrence of one text for another.
-/

namespace TemplateGuards

/-- A text, character by character. -/
abbrev Text := List Char

instance : Coe String Text := ⟨String.toList⟩

namespace Text

/-- The decimal digits of a number. -/
def ofNat (n : Nat) : Text := Nat.toDigits 10 n

/-- The number of bytes of the text in UTF-8. -/
def byteSize (t : Text) : Nat := t.foldr (fun c n => c.utf8Size + n) 0

@[simp] theorem byteSize_nil : byteSize [] = 0 := rfl

@[simp] theorem byteSize_cons (c : Char) (t : Text) :
    byteSize (c :: t) = c.utf8Size + byteSize t := rfl

@[simp] theorem byteSize_append (s t : Text) : byteSize (s ++ t) = byteSize s + byteSize t := by
  induction s with
  | nil => simp
  | cons c s ih => rw [List.cons_append, byteSize_cons, byteSize_cons, ih, Nat.add_assoc]

/-! ### Splitting -/

/-- The parts between the occurrences of `sep`; there is always at least one. -/
def splitOn (sep : Char) : Text → List Text
  | [] => [[]]
  | c :: cs =>
    if c = sep then [] :: splitOn sep cs
    else match splitOn sep cs with
      | [] => [[c]]
      | part :: parts => (c :: part) :: parts

theorem splitOn_ne_nil (sep : Char) (t : Text) : splitOn sep t ≠ [] := by
  cases t with
  | nil => simp [splitOn]
  | cons c cs =>
    unfold splitOn
    split
    · simp
    · split <;> simp

/-- The text before and the text after the first `sep`, if there is one. -/
def cut? (sep : Char) : Text → Option (Text × Text)
  | [] => none
  | c :: cs =>
    if c = sep then some ([], cs)
    else (cut? sep cs).map fun (before, after) => (c :: before, after)

/-- A cut loses nothing but the separator, and the text before it holds no separator. -/
theorem cut?_eq_some {sep : Char} {t before after : Text} (h : cut? sep t = some (before, after)) :
    t = before ++ sep :: after ∧ sep ∉ before := by
  induction t generalizing before with
  | nil => simp [cut?] at h
  | cons c cs ih =>
    unfold cut? at h
    split at h
    · obtain ⟨rfl, rfl⟩ : [] = before ∧ cs = after := by simpa using h
      simp_all
    · next hc =>
      obtain ⟨⟨b, a⟩, hb, heq⟩ := Option.map_eq_some_iff.1 h
      obtain ⟨rfl, rfl⟩ : c :: b = before ∧ a = after := by simpa using heq
      obtain ⟨h1, h2⟩ := ih hb
      exact ⟨by rw [h1]; rfl, by simp [h2, Ne.symm hc]⟩

/-! ### Searching -/

/-- Does `needle` occur somewhere in the text? -/
def occurs (needle : Text) : Text → Bool
  | [] => needle.isEmpty
  | c :: cs => needle.isPrefixOf (c :: cs) || occurs needle cs

theorem occurs_iff_infix {needle t : Text} : occurs needle t = true ↔ needle <:+: t := by
  induction t with
  | nil => simp [occurs]
  | cons c cs ih => simp [occurs, ih, List.infix_cons_iff]

/-- The text with every occurrence of `old`, left to right and without overlaps, exchanged for
`new`.  An empty `old` occurs before each character and at the end. -/
def replaceAll (old new : Text) (t : Text) : Text :=
  match t with
  | [] => if old.isEmpty then new else []
  | c :: cs =>
    if old.isEmpty then new ++ c :: replaceAll old new cs
    else if old.isPrefixOf (c :: cs) then new ++ replaceAll old new (cs.drop (old.length - 1))
    else c :: replaceAll old new cs
termination_by t.length
decreasing_by all_goals grind

theorem replaceAll_nil {old new : Text} (hold : old ≠ []) : replaceAll old new [] = [] := by
  rw [replaceAll, if_neg (by simpa using hold)]

theorem replaceAll_append {old new : Text} (hold : old ≠ []) (t : Text) :
    replaceAll old new (old ++ t) = new ++ replaceAll old new t := by
  cases old with
  | nil => exact absurd rfl hold
  | cons c old =>
    rw [List.cons_append, replaceAll, if_neg (by simp), if_pos (by simp)]
    simp

theorem replaceAll_cons {old new t : Text} {c : Char} (hold : old ≠ []) (h : ¬ old <+: c :: t) :
    replaceAll old new (c :: t) = c :: replaceAll old new t := by
  rw [replaceAll, if_neg (by simpa using hold), if_neg (by simpa using h)]

end Text

end TemplateGuards
