import TemplateGuards.Proofs.JsonStrings

/-!
A text of JSON cut into tokens, with the white space between them left out.

* `Json.Token`, `Json.token?`, `Json.tokens?`: the tokens of a text;
* `Json.tokens`: the tokens of a value;
* `Json.cuts_items`, `Json.cuts_members`: the rest of an array and of an object;
* `Json.cuts`: **a printed value is cut into its tokens**, at any depth.
-/

namespace TemplateGuards

namespace Json

/-! ### The tokens of a text -/

/-- The parts of a text of JSON. -/
inductive Token
  | openArray
  | closeArray
  | openObject
  | closeObject
  | comma
  | colon
  | null
  | bool (value : Bool)
  | number (value : Nat)
  | string (value : Text)
deriving DecidableEq, Repr

/-- Is the character white space between tokens? -/
def isSpace (c : Char) : Bool := c ∈ [' ', '\t', '\n', '\r']

/-- The token that is a single character. -/
def sign? : Char → Option Token
  | '[' => some .openArray
  | ']' => some .closeArray
  | '\x7b' => some .openObject
  | '\x7d' => some .closeObject
  | ',' => some .comma
  | ':' => some .colon
  | _ => none

/-- The token that is a word. -/
def word? (w : Text) : Option Token :=
  if w = "null" then some .null
  else if w = "true" then some (.bool true)
  else if w = "false" then some (.bool false)
  else none

/-- The number that digits spell; only zero itself starts with a zero. -/
def number? (digits : Text) : Option Nat :=
  if digits.head? = some '0' ∧ digits ≠ ['0'] then none else some (Nat.ofDigitChars 10 digits 0)

/-- The first token of a text that does not start with white space, and the rest of the text. -/
def token? : Text → Option (Token × Text)
  | [] => none
  | c :: t =>
    match sign? c with
    | some token => some (token, t)
    | none =>
      if c = '"' then (string? t).map fun (s, rest) => (.string s, rest)
      else if c.isDigit then
        (number? ((c :: t).takeWhile Char.isDigit)).map fun n =>
          (.number n, (c :: t).dropWhile Char.isDigit)
      else
        (word? (c :: t.takeWhile Char.isAlpha)).map fun token =>
          (token, t.dropWhile Char.isAlpha)

lemma length_lt_of_token? {t rest : Text} {token : Token} (h : token? t = some (token, rest)) :
    rest.length < t.length := by
  cases t with
  | nil => cases h
  | cons c t =>
      have hdrop (p : Char → Bool) : (t.dropWhile p).length ≤ t.length :=
        (List.dropWhile_sublist p).length_le
      rw [token?] at h
      split at h
      · cases h
        exact Nat.lt_succ_self _
      · split at h
        · obtain ⟨⟨s, rest'⟩, hs, heq⟩ := Option.map_eq_some_iff.mp h
          cases heq
          exact Nat.lt_succ_of_le (length_le_of_string? hs)
        · split at h
          · next hdigit =>
              obtain ⟨n, -, heq⟩ := Option.map_eq_some_iff.mp h
              cases heq
              rw [List.dropWhile_cons_of_pos hdigit]
              exact Nat.lt_succ_of_le (hdrop _)
          · obtain ⟨w, -, heq⟩ := Option.map_eq_some_iff.mp h
            cases heq
            exact Nat.lt_succ_of_le (hdrop _)

/-- The tokens of a text. -/
def tokens? (t : Text) : Option (List Token) :=
  match t with
  | [] => some []
  | c :: cs =>
    if isSpace c then tokens? cs
    else
      match _h : token? (c :: cs) with
      | some (token, rest) => (tokens? rest).map (token :: ·)
      | none => none
termination_by t.length
decreasing_by
  · exact Nat.lt_succ_self _
  · exact length_lt_of_token? _h

lemma tokens?_cons (c : Char) (t : Text) :
    tokens? (c :: t) =
      if isSpace c then tokens? t
      else (token? (c :: t)).bind fun (token, rest) => (tokens? rest).map (token :: ·) := by
  rw [tokens?]
  split
  · rfl
  · split
    · next h => rw [h, Option.bind_some]
    · next h => rw [h, Option.bind_none]

/-! ### The tokens of a value -/

mutual

/-- The tokens of a value. -/
def tokens : Json → List Token
  | null => [.null]
  | bool b => [.bool b]
  | number n => [.number n]
  | string s => [.string s]
  | array [] => [.openArray, .closeArray]
  | array (item :: items) => .openArray :: tokens item ++ itemTokens items ++ [.closeArray]
  | object [] => [.openObject, .closeObject]
  | object ((name, value) :: members) =>
    .openObject :: .string name :: .colon :: tokens value ++ memberTokens members ++ [.closeObject]

/-- The tokens of the items of an array after the first. -/
def itemTokens : List Json → List Token
  | [] => []
  | item :: items => .comma :: tokens item ++ itemTokens items

/-- The tokens of the members of an object after the first. -/
def memberTokens : List (Text × Json) → List Token
  | [] => []
  | (name, value) :: members =>
    .comma :: .string name :: .colon :: tokens value ++ memberTokens members

end

/-! ### Tokens one by one -/

lemma tokens?_newline (depth : Nat) (t : Text) : tokens? (newline depth ++ t) = tokens? t := by
  have hspaces (n : Nat) : tokens? (List.replicate n ' ' ++ t) = tokens? t := by
    induction n with
    | zero => rfl
    | succ n ih => rw [List.replicate_succ, List.cons_append, tokens?_cons, if_pos (by decide), ih]
  rw [newline, List.cons_append, tokens?_cons, if_pos (by decide), hspaces]

lemma tokens?_space (t : Text) : tokens? (' ' :: t) = tokens? t := by
  rw [tokens?_cons, if_pos (by decide)]

lemma tokens?_sign {c : Char} {token : Token} (h : sign? c = some token) (t : Text) :
    tokens? (c :: t) = (tokens? t).map (token :: ·) := by
  have hc : isSpace c = false := by
    unfold sign? at h
    split at h <;> first | decide | cases h
  rw [tokens?_cons, hc, if_neg Bool.false_ne_true, token?, h, Option.bind_some]

lemma tokens?_printString (s t : Text) :
    tokens? (printString s ++ t) = (tokens? t).map (.string s :: ·) := by
  have hprint : printString s ++ t = '"' :: (s.flatMap escape ++ '"' :: t) := by
    simp [printString]
  have hsign : sign? '"' = none := rfl
  have htoken : token? ('"' :: (s.flatMap escape ++ '"' :: t)) = some (.string s, t) := by
    simp only [token?, hsign, if_true, string?_escape, Option.map_some]
  rw [hprint, tokens?_cons, if_neg (by decide), htoken, Option.bind_some]

/-- No digit or letter starts the text. -/
def Stops (t : Text) : Prop := ∀ c ∈ t.head?, c.isAlphanum = false

/-- Characters of a class that go on in front of a text where they stop. -/
lemma span_of_stops {p : Char → Bool} {w t : Text} (hw : ∀ c ∈ w, p c = true) (ht : Stops t)
    (hp : ∀ c, p c = true → c.isAlphanum = true) :
    (w ++ t).takeWhile p = w ∧ (w ++ t).dropWhile p = t := by
  have hstop : t.takeWhile p = [] ∧ t.dropWhile p = t := by
    cases t with
    | nil => exact ⟨rfl, rfl⟩
    | cons c t =>
        have hc : p c = false := by
          by_contra h
          have := hp c (by simpa using h)
          rw [ht c rfl] at this
          cases this
        simp [hc]
  rw [List.takeWhile_append_of_pos hw, List.dropWhile_append_of_pos hw, hstop.1, hstop.2]
  simp

/-- Only zero itself is written with a leading zero. -/
lemma head?_ofNat_ne {n : Nat} (hn : n ≠ 0) : (Text.ofNat n).head? ≠ some '0' := by
  have hdigit : ∀ d < 10, d ≠ 0 → Nat.digitChar d ≠ '0' := by decide
  induction n using Nat.strongRecOn with
  | _ n ih =>
    unfold Text.ofNat at ih ⊢
    by_cases hlt : n < 10
    · rw [Nat.toDigits_of_lt_base hlt]
      simpa using hdigit n hlt hn
    · rw [Nat.toDigits_of_base_le (by decide) (by omega),
        List.head?_append_of_ne_nil _ Nat.toDigits_ne_nil]
      exact ih (n / 10) (by omega) (by omega)

lemma number?_ofNat (n : Nat) : number? (Text.ofNat n) = some n := by
  have hzero : ¬ ((Text.ofNat n).head? = some '0' ∧ Text.ofNat n ≠ ['0']) := by
    rintro ⟨hhead, hne⟩
    by_cases hn : n = 0
    · subst hn
      exact hne rfl
    · exact head?_ofNat_ne hn hhead
  rw [number?, if_neg hzero, Text.ofNat, Nat.ofDigitChars_ten_toDigits]

lemma not_special_of_isAlphanum {c : Char} (h : c.isAlphanum = true) :
    isSpace c = false ∧ sign? c = none ∧ c ≠ '"' := by
  refine ⟨?_, ?_, ?_⟩
  · by_contra hspace
    simp only [isSpace, List.mem_cons, List.not_mem_nil, or_false, decide_eq_true_eq,
      Bool.not_eq_false] at hspace
    rcases hspace with rfl | rfl | rfl | rfl <;> revert h <;> decide
  · unfold sign?
    split <;> first | rfl | (revert h; decide)
  · rintro rfl
    revert h
    decide

lemma tokens?_ofNat (n : Nat) {t : Text} (ht : Stops t) :
    tokens? (Text.ofNat n ++ t) = (tokens? t).map (.number n :: ·) := by
  have hdigits : ∀ c ∈ Text.ofNat n, c.isDigit = true := fun c hc =>
    Nat.isDigit_of_mem_toDigits (by decide) (by decide) hc
  obtain ⟨htake, hdrop⟩ := span_of_stops hdigits ht fun c hc => by simp [Char.isAlphanum, hc]
  obtain ⟨c, cs, hcs⟩ : ∃ c cs, Text.ofNat n = c :: cs :=
    List.exists_cons_of_ne_nil Nat.toDigits_ne_nil
  have hc : c.isDigit = true := hdigits c (hcs ▸ List.mem_cons_self)
  have halphanum : c.isAlphanum = true := by simp [Char.isAlphanum, hc]
  obtain ⟨hspace, hsign, hquote⟩ := not_special_of_isAlphanum halphanum
  have htoken : token? (c :: (cs ++ t)) = some (.number n, t) := by
    rw [token?, hsign]
    simp only [if_neg hquote, hc, if_true]
    rw [← List.cons_append, ← hcs, htake, hdrop, number?_ofNat, Option.map_some]
  rw [hcs, List.cons_append, tokens?_cons, hspace, if_neg Bool.false_ne_true, htoken,
    Option.bind_some]

lemma tokens?_word {c : Char} {w t : Text} {token : Token} (h : word? (c :: w) = some token)
    (hc : c.isAlpha = true) (hdigit : c.isDigit = false) (hw : w.all Char.isAlpha = true)
    (ht : Stops t) : tokens? (c :: w ++ t) = (tokens? t).map (token :: ·) := by
  have hletters : ∀ d ∈ w, d.isAlpha = true := List.all_eq_true.mp hw
  obtain ⟨htake, hdrop⟩ := span_of_stops hletters ht fun c hc => by simp [Char.isAlphanum, hc]
  have halphanum : c.isAlphanum = true := by simp [Char.isAlphanum, hc]
  obtain ⟨hspace, hsign, hquote⟩ := not_special_of_isAlphanum halphanum
  have htoken : token? (c :: (w ++ t)) = some (token, t) := by
    rw [token?, hsign]
    simp only [if_neg hquote, hdigit, if_neg Bool.false_ne_true]
    rw [htake, hdrop, h, Option.map_some]
  rw [List.cons_append, tokens?_cons, hspace, if_neg Bool.false_ne_true, htoken, Option.bind_some]

/-! ### A printed value -/

/-- A property of all values that arrays and objects inherit from what is in them. -/
@[elab_as_elim]
theorem ind {P : Json → Prop} (null : P .null) (bool : ∀ b, P (.bool b))
    (number : ∀ n, P (.number n)) (string : ∀ s, P (.string s))
    (array : ∀ items : List Json, (∀ item ∈ items, P item) → P (.array items))
    (object : ∀ members : List (Text × Json), (∀ m ∈ members, P m.2) → P (.object members))
    (j : Json) : P j :=
  @Json.rec P (fun items => ∀ item ∈ items, P item) (fun members => ∀ m ∈ members, P m.2)
    (fun m => P m.2) null bool number string array object
    (by simp) (fun _ _ hitem hitems => List.forall_mem_cons.mpr ⟨hitem, hitems⟩)
    (by simp) (fun _ _ hm hms => List.forall_mem_cons.mpr ⟨hm, hms⟩) (fun _ _ h => h) j

lemma stops_cons {c : Char} (t : Text) (hc : c.isAlphanum = false) : Stops (c :: t) := by
  rintro d hd
  obtain rfl : c = d := Option.some.inj hd
  exact hc

lemma printAt_array_cons (depth : Nat) (item : Json) (items : List Json) :
    (array (item :: items)).printAt depth =
      "[" ++ newline (depth + 1) ++ item.printAt (depth + 1) ++ printItems (depth + 1) items ++
        newline depth ++ "]" := rfl

lemma printAt_object_cons (depth : Nat) (name : Text) (value : Json)
    (members : List (Text × Json)) :
    (object ((name, value) :: members)).printAt depth =
      "\x7b" ++ newline (depth + 1) ++ printString name ++ ": " ++ value.printAt (depth + 1) ++
        printMembers (depth + 1) members ++ newline depth ++ "\x7d" := rfl

lemma printItems_cons (depth : Nat) (item : Json) (items : List Json) :
    printItems depth (item :: items) =
      "," ++ newline depth ++ item.printAt depth ++ printItems depth items := rfl

lemma printMembers_cons (depth : Nat) (name : Text) (value : Json)
    (members : List (Text × Json)) :
    printMembers depth ((name, value) :: members) =
      "," ++ newline depth ++ printString name ++ ": " ++ value.printAt depth ++
        printMembers depth members := rfl

/-- The printed value is cut into its tokens, at any depth and whatever follows that stops it. -/
def Cuts (j : Json) : Prop :=
  ∀ depth t, Stops t → tokens? (j.printAt depth ++ t) = (tokens? t).map (j.tokens ++ ·)

lemma cuts_items {items : List Json} (h : ∀ item ∈ items, item.Cuts) (depth : Nat) {t : Text}
    (ht : Stops t) :
    Stops (printItems depth items ++ t) ∧
      tokens? (printItems depth items ++ t) = (tokens? t).map (itemTokens items ++ ·) := by
  induction items with
  | nil => exact ⟨ht, Option.map_id'.symm⟩
  | cons item items ih =>
      obtain ⟨hitem, hitems⟩ := List.forall_mem_cons.mp h
      obtain ⟨hstops, hrest⟩ := ih hitems
      have hprint : printItems depth (item :: items) ++ t =
          ',' :: (newline depth ++ (item.printAt depth ++ (printItems depth items ++ t))) := by
        simp [printItems_cons]
      rw [hprint]
      -- a number or a word ends where the comma of the next item, or what follows, begins
      refine ⟨stops_cons _ (by decide), ?_⟩
      rw [tokens?_sign rfl, tokens?_newline, hitem depth _ hstops, hrest]
      simp [itemTokens, Function.comp_def]

lemma cuts_members {members : List (Text × Json)} (h : ∀ m ∈ members, m.2.Cuts) (depth : Nat)
    {t : Text} (ht : Stops t) :
    Stops (printMembers depth members ++ t) ∧
      tokens? (printMembers depth members ++ t) = (tokens? t).map (memberTokens members ++ ·) := by
  induction members with
  | nil => exact ⟨ht, Option.map_id'.symm⟩
  | cons m members ih =>
      obtain ⟨name, value⟩ := m
      obtain ⟨hvalue, hmembers⟩ := List.forall_mem_cons.mp h
      obtain ⟨hstops, hrest⟩ := ih hmembers
      have hprint : printMembers depth ((name, value) :: members) ++ t =
          ',' :: (newline depth ++ (printString name ++
            (':' :: ' ' :: (value.printAt depth ++ (printMembers depth members ++ t))))) := by
        simp [printMembers_cons]
      rw [hprint]
      refine ⟨stops_cons _ (by decide), ?_⟩
      rw [tokens?_sign rfl, tokens?_newline, tokens?_printString, tokens?_sign rfl, tokens?_space,
        hvalue depth _ hstops, hrest]
      simp [memberTokens, Function.comp_def]

/-- **A printed value is cut into its tokens.** -/
lemma cuts (j : Json) : j.Cuts := by
  induction j using ind with
  | null => exact fun _ _ => tokens?_word rfl (by decide) (by decide) (by decide)
  | bool b =>
      cases b <;> exact fun _ _ => tokens?_word rfl (by decide) (by decide) (by decide)
  | number n => exact fun _ _ => tokens?_ofNat n
  | string s =>
      intro depth t _
      exact tokens?_printString s t
  | array items ih =>
      intro depth t ht
      cases items with
      | nil =>
          have hprint : (array []).printAt depth ++ t = '[' :: ']' :: t := rfl
          rw [hprint, tokens?_sign rfl, tokens?_sign rfl]
          simp [tokens, Function.comp_def]
      | cons item items =>
          obtain ⟨hitem, hitems⟩ := List.forall_mem_cons.mp ih
          have hclose : Stops (newline depth ++ ']' :: t) := stops_cons _ (by decide)
          obtain ⟨hstops, hrest⟩ := cuts_items hitems (depth + 1) hclose
          have hprint : (array (item :: items)).printAt depth ++ t =
              '[' :: (newline (depth + 1) ++ (item.printAt (depth + 1) ++
                (printItems (depth + 1) items ++ (newline depth ++ ']' :: t)))) := by
            simp [printAt_array_cons]
          rw [hprint, tokens?_sign rfl, tokens?_newline, hitem _ _ hstops, hrest, tokens?_newline,
            tokens?_sign rfl]
          simp [tokens, Function.comp_def]
  | object members ih =>
      intro depth t ht
      cases members with
      | nil =>
          have hprint : (object []).printAt depth ++ t = '\x7b' :: '\x7d' :: t := rfl
          rw [hprint, tokens?_sign rfl, tokens?_sign rfl]
          simp [tokens, Function.comp_def]
      | cons m members =>
          obtain ⟨name, value⟩ := m
          obtain ⟨hvalue, hmembers⟩ := List.forall_mem_cons.mp ih
          have hclose : Stops (newline depth ++ '\x7d' :: t) := stops_cons _ (by decide)
          obtain ⟨hstops, hrest⟩ := cuts_members hmembers (depth + 1) hclose
          have hprint : (object ((name, value) :: members)).printAt depth ++ t =
              '\x7b' :: (newline (depth + 1) ++ (printString name ++ (':' :: ' ' ::
                (value.printAt (depth + 1) ++
                  (printMembers (depth + 1) members ++ (newline depth ++ '\x7d' :: t)))))) := by
            simp [printAt_object_cons]
          rw [hprint, tokens?_sign rfl, tokens?_newline, tokens?_printString, tokens?_sign rfl,
            tokens?_space, hvalue _ _ hstops, hrest, tokens?_newline, tokens?_sign rfl]
          simp [tokens, Function.comp_def]

end Json

end TemplateGuards
