import TemplateGuards.Config.Basic
import TemplateGuards.Proofs.RegexSearch
import TemplateGuards.Proofs.Segments

/-!
Patterns of paths, without the regular expressions that they become.  The stars of a pattern
separate its literal parts, and a text fits the pattern if it is made of these parts, with any runs
of characters other than a line feed between them.

* `Pattern.Fits`: a text that is made of literal parts with runs between them;
* `Pattern.replaceAll_escape`: the spelling of a pattern, character by character;
* `Pattern.read?_spelling`: the expression of a pattern, an item for each character;
* `Pattern.fits_items_iff`: what fits the expression is what fits the parts of the pattern;
* `Pattern.foundIn_iff`, `Pattern.foundAtEnd_iff`: the two questions, with a star or without;
* `Config.isIgnored_and_isTemplate_iff`: the files that a configuration leaves out, and its
  templates.
-/

namespace TemplateGuards

open Regex (Atom Item Sign)

/-! ### Escaped texts -/

namespace Regex

/-- An escaped text does not start with a star. -/
lemma not_star_prefix_escape (t : Text) : ¬ ['*'] <+: escape t := by
  cases t with
  | nil => simp [escape]
  | cons c t =>
      rw [escape, List.flatMap_cons, escapeChar]
      split
      · simp
      · next hc =>
          have hne : '*' ≠ c := by
            rintro rfl
            exact hc (by decide)
          simpa using hne

lemma signs?_of_not_special {c : Char} (hc : isSpecial c = false) (s : Text) :
    signs? (c :: s) = (signs? s).map (.atom (.char c) :: ·) := by
  have hne : c ≠ '\\' ∧ c ≠ '.' ∧ c ≠ '*' ∧ c ≠ '$' := by
    refine ⟨?_, ?_, ?_, ?_⟩ <;> rintro rfl <;> exact absurd hc (by decide)
  rw [signs?.eq_def]
  split <;> simp_all

/-- A character that stands for itself is read back. -/
lemma signs?_escapeChar_append (c : Char) (s : Text) :
    signs? (escapeChar c ++ s) = (signs? s).map (.atom (.char c) :: ·) := by
  cases hc : isSpecial c with
  | true => simp [escapeChar, hc, signs?]
  | false => simpa [escapeChar, hc] using signs?_of_not_special hc s

/-- An atom that no star follows stands there once. -/
lemma ofSigns?_once {a : Atom} {signs : List Sign} (h : ¬ [Sign.star] <+: signs) :
    ofSigns? (.atom a :: signs) = (ofSigns? signs).map (cons ⟨a, false⟩) := by
  rw [ofSigns?.eq_def]
  split <;> simp_all

end Regex

namespace Pattern

/-- The text is made of the literal parts, in their order, with a run of characters other than a
line feed between any two of them. -/
inductive Fits : List Text → Text → Prop
  | last (l : Text) : Fits [l] l
  | star (l : Text) {r : Text} {ls : List Text} {t : Text} (hr : '\n' ∉ r) (h : Fits ls t) :
      Fits (l :: ls) (l ++ (r ++ t))

variable {pattern path t : Text}

/-! ### The expression of a pattern -/

/-- What a character of a pattern is spelled with. -/
def spellingOf (c : Char) : Text := if c = '*' then ".*" else Regex.escapeChar c

/-- The signs of a character of a pattern. -/
def signsOf (c : Char) : List Sign := if c = '*' then [.atom .any, .star] else [.atom (.char c)]

/-- The item of a character of a pattern. -/
def itemOf (c : Char) : Item := if c = '*' then ⟨.any, true⟩ else ⟨.char c, false⟩

/-- **The exchange of the escaped stars** touches nothing else: no star of an escaped text is
without a backslash of its own, so that a backslash before a star stays what it was. -/
lemma replaceAll_escape (pattern : Text) :
    Text.replaceAll "\\*" ".*" (Regex.escape pattern) = pattern.flatMap spellingOf := by
  have hold : "\\*".toList ≠ [] := by decide
  induction pattern with
  | nil => exact Text.replaceAll_nil hold
  | cons c p ih =>
      have hescape : Regex.escape (c :: p) = Regex.escapeChar c ++ Regex.escape p := rfl
      rw [hescape, List.flatMap_cons, spellingOf]
      split
      · next hc =>
          subst hc
          rw [show Regex.escapeChar '*' = "\\*".toList from rfl, Text.replaceAll_append hold, ih]
      · next hc =>
          -- a backslash right before the rest would have to escape a star there
          have hlast : ¬ "\\*".toList <+: c :: Regex.escape p := fun h =>
            Regex.not_star_prefix_escape p (List.cons_prefix_cons.mp h).2
          rw [Regex.escapeChar]
          split
          · have hfirst : ¬ "\\*".toList <+: '\\' :: c :: Regex.escape p := by
              simpa using Ne.symm hc
            rw [List.cons_append, List.singleton_append, Text.replaceAll_cons hold hfirst,
              Text.replaceAll_cons hold hlast, ih]
            rfl
          · rw [List.singleton_append, Text.replaceAll_cons hold hlast, ih]
            rfl

lemma signs?_spelling (pattern s : Text) :
    Regex.signs? (pattern.flatMap spellingOf ++ s) =
      (Regex.signs? s).map (pattern.flatMap signsOf ++ ·) := by
  induction pattern with
  | nil => simp
  | cons c p ih =>
      rw [List.flatMap_cons, List.append_assoc, List.flatMap_cons, spellingOf, signsOf]
      split
      · simp [Regex.signs?, ih, Function.comp_def]
      · rw [Regex.signs?_escapeChar_append, ih, Option.map_map]
        rfl

lemma ofSigns?_signsOf (pattern : Text) (atEnd : Bool) :
    Regex.ofSigns? (pattern.flatMap signsOf ++ if atEnd then [.dollar] else []) =
      some ⟨pattern.map itemOf, atEnd⟩ := by
  induction pattern with
  | nil => cases atEnd <;> rfl
  | cons c p ih =>
      rw [List.flatMap_cons, List.append_assoc, List.map_cons, signsOf, itemOf]
      split
      · simp [Regex.ofSigns?, ih, Regex.cons]
      · have hstar : ¬ [Sign.star] <+: p.flatMap signsOf ++ if atEnd then [.dollar] else [] := by
          cases p with
          | nil => cases atEnd <;> simp
          | cons d p =>
              rw [List.flatMap_cons, signsOf]
              split <;> simp
        rw [List.singleton_append, Regex.ofSigns?_once hstar, ih]
        rfl

/-- **The expression of a pattern** always is one: an item for each character. -/
lemma read?_spelling (pattern : Text) (atEnd : Bool) :
    Regex.read? (spelling pattern atEnd) = some ⟨pattern.map itemOf, atEnd⟩ := by
  have hend : Regex.signs? (if atEnd then "$" else "" : String) =
      some (if atEnd then [.dollar] else []) := by
    cases atEnd <;> rfl
  rw [Regex.read?, spelling, replaceAll_escape, signs?_spelling, hend, Option.map_some,
    Option.bind_some, ofSigns?_signsOf]

/-! ### What fits -/

lemma fits_singleton_iff {l : Text} : Fits [l] t ↔ t = l := by
  constructor
  · intro h
    cases h with
    | last => rfl
    | star _ _ h => cases h
  · rintro rfl
    exact .last t

/-- The first part has its first character in front. -/
lemma fits_cons_iff {c : Char} {l : Text} {ls : List Text} :
    Fits ((c :: l) :: ls) t ↔ ∃ u, t = c :: u ∧ Fits (l :: ls) u := by
  constructor
  · intro h
    cases h with
    | last => exact ⟨l, rfl, .last l⟩
    | star _ hr h => exact ⟨_, rfl, .star l hr h⟩
  · rintro ⟨u, rfl, h⟩
    cases h with
    | last => exact .last (c :: l)
    | star _ hr h => exact .star (c :: l) hr h

/-- Behind an empty part a run comes. -/
lemma fits_nil_cons_iff {ls : List Text} (hls : ls ≠ []) :
    Fits ([] :: ls) t ↔ ∃ r u, '\n' ∉ r ∧ t = r ++ u ∧ Fits ls u := by
  constructor
  · intro h
    cases h with
    | last => exact absurd rfl hls
    | star _ hr h => exact ⟨_, _, hr, rfl, h⟩
  · rintro ⟨r, u, hr, rfl, h⟩
    exact .star [] hr h

/-- **What fits the expression** of a pattern is what fits its parts. -/
lemma fits_items_iff : Regex.Fits (pattern.map itemOf) t ↔ Fits (Text.splitOn '*' pattern) t := by
  induction pattern generalizing t with
  | nil =>
      rw [Text.splitOn, fits_singleton_iff]
      constructor
      · intro h
        cases h
        rfl
      · rintro rfl
        exact .nil
  | cons c p ih =>
      by_cases hc : c = '*'
      · have hany : ∀ r : Text, (∀ d ∈ r, Atom.any.accepts d = true) ↔ '\n' ∉ r := fun r => by
          simp [Regex.Atom.accepts, List.forall_mem_ne']
        rw [Text.splitOn, if_pos hc, fits_nil_cons_iff (Text.splitOn_ne_nil '*' p), List.map_cons,
          itemOf, if_pos hc]
        simp only [← ih]
        constructor
        · intro h
          cases h with
          | run hr h => exact ⟨_, _, (hany _).mp hr, rfl, h⟩
        · rintro ⟨r, u, hr, rfl, h⟩
          exact .run ((hany r).mpr hr) h
      · obtain ⟨part, parts, hp⟩ := List.exists_cons_of_ne_nil (Text.splitOn_ne_nil '*' p)
        rw [hp] at ih
        rw [Text.splitOn, if_neg hc, hp, fits_cons_iff, List.map_cons, itemOf, if_neg hc]
        simp only [← ih]
        constructor
        · intro h
          cases h with
          | @once _ _ d u hd h => exact ⟨u, by rw [eq_of_beq hd], h⟩
        · rintro ⟨u, rfl, h⟩
          exact .once (beq_self_eq_true c) h

/-! ### The two questions -/

lemma globs_iff {atEnd : Bool} :
    globs pattern path atEnd = true ↔
      ∃ x u y, path = x ++ (u ++ y) ∧ Fits (Text.splitOn '*' pattern) u ∧
        (atEnd = true → y = []) := by
  simp only [globs, read?_spelling, Regex.isFoundIn_iff, fits_items_iff]

/-- A pattern is found in a path where some part of the path fits it. -/
lemma foundIn_iff :
    foundIn pattern path = true ↔
      ∃ x u y, path = x ++ (u ++ y) ∧ Fits (Text.splitOn '*' pattern) u := by
  rw [foundIn]
  split
  · simp [globs_iff]
  · next hstar =>
      rw [Text.splitOn_of_not_mem (by simpa using hstar), Text.occurs_iff_infix]
      simp only [fits_singleton_iff]
      constructor
      · rintro ⟨x, y, rfl⟩
        exact ⟨x, pattern, y, List.append_assoc .., rfl⟩
      · rintro ⟨x, _, y, rfl, rfl⟩
        exact ⟨x, y, List.append_assoc ..⟩

/-- A pattern is found at the end of a path where some part at the very end fits it. -/
lemma foundAtEnd_iff :
    foundAtEnd pattern path = true ↔
      ∃ x u, path = x ++ u ∧ Fits (Text.splitOn '*' pattern) u := by
  rw [foundAtEnd]
  split
  · rw [globs_iff]
    constructor
    · rintro ⟨x, u, y, rfl, hu, hy⟩
      exact ⟨x, u, by rw [hy rfl, List.append_nil], hu⟩
    · rintro ⟨x, u, rfl, hu⟩
      exact ⟨x, u, [], by rw [List.append_nil], hu, fun _ => rfl⟩
  · next hstar =>
      rw [Text.splitOn_of_not_mem (by simpa using hstar), List.isSuffixOf_iff_suffix]
      simp only [fits_singleton_iff]
      constructor
      · rintro ⟨x, rfl⟩
        exact ⟨x, pattern, rfl, rfl⟩
      · rintro ⟨x, _, rfl, rfl⟩
        exact ⟨x, rfl⟩

end Pattern

/-- **Files left out, and templates.**  A configuration leaves a file out exactly if some part of
its path is made of the literal parts of a pattern to ignore, with runs of characters other than a
line feed for the stars; it takes a file for a template exactly if some part at the very end of its
path is so made of the parts of a pattern of templates. -/
theorem Config.isIgnored_and_isTemplate_iff (c : Config) (path : Text) :
    (c.isIgnored path = true ↔ ∃ pattern ∈ c.ignore,
      ∃ x t y, path = x ++ (t ++ y) ∧ Pattern.Fits (Text.splitOn '*' pattern) t) ∧
    (c.isTemplate path = true ↔ ∃ pattern ∈ c.templateFiles,
      ∃ x t, path = x ++ t ∧ Pattern.Fits (Text.splitOn '*' pattern) t) := by
  constructor
  · rw [isIgnored, List.any_eq_true]
    simp only [Pattern.foundIn_iff]
  · rw [isTemplate, List.any_eq_true]
    simp only [Pattern.foundAtEnd_iff]

end TemplateGuards
