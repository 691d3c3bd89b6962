import TemplateGuards.Directive.Kind
import TemplateGuards.Text.Quotation

/-!
The regions of a template: the pieces that start with `@` and are not ordinary text.  A region
is live (an opener with its argument text, or an end marker) or escaped by a second `@`.  An
escaped opener takes its arguments along where a parenthesis balances its own, and only its tag
where none does; a live opener without a balancing parenthesis is no region but a fault.

* `Region.source`: the text of a region;
* `Sighting.ofText`: what starts at the first character of a text;
* `Sighting.ofText_eq_region`: a region's text and what is left make up the text.
-/

namespace TemplateGuards

/-- A piece of a template that starts with `@` and is not ordinary text. -/
inductive Region
  /-- `@kind(args)`, live. -/
  | opener (kind : Kind) (args : Text)
  /-- `@endkind`, live. -/
  | ender (kind : Kind)
  /-- `@@kind(`, up to and with its balancing parenthesis where there is one. -/
  | escapedOpener (kind : Kind) (args? : Option Text)
  /-- `@@endkind`. -/
  | escapedEnder (kind : Kind)
deriving DecidableEq, Repr

/-- The text of a region. -/
def Region.source : Region → Text
  | opener kind args => '@' :: (Tag.opener kind).word ++ args ++ ")"
  | ender kind => '@' :: (Tag.ender kind).word
  | escapedOpener kind (some args) => '@' :: '@' :: (Tag.opener kind).word ++ args ++ ")"
  | escapedOpener kind none => '@' :: '@' :: (Tag.opener kind).word
  | escapedEnder kind => '@' :: '@' :: (Tag.ender kind).word

/-- What starts at the first character of a text. -/
inductive Sighting
  /-- Ordinary text, or nothing at all. -/
  | ordinary
  /-- A live opener that no parenthesis balances. -/
  | unterminated (kind : Kind)
  /-- A region, and the text after it. -/
  | region (region : Region) (rest : Text)
deriving DecidableEq, Repr

namespace Sighting

/-- What a live tag starts, `rest` being the text after the tag. -/
def live : Tag → Text → Sighting
  | .ender kind, rest => region (.ender kind) rest
  | .opener kind, rest =>
    match closingParen? rest with
    | some (args, after) => region (.opener kind args) after
    | none => unterminated kind

/-- What an escaped tag starts, `rest` being the text after the tag. -/
def escaped : Tag → Text → Sighting
  | .ender kind, rest => region (.escapedEnder kind) rest
  | .opener kind, rest =>
    match closingParen? rest with
    | some (args, after) => region (.escapedOpener kind (some args)) after
    | none => region (.escapedOpener kind none) rest

/-- What starts at the first character of a text. -/
def ofText : Text → Sighting
  | '@' :: '@' :: s =>
    match Tag.read? s with
    | some (tag, rest) => escaped tag rest
    | none => ordinary
  | '@' :: s =>
    match Tag.read? s with
    | some (tag, rest) => live tag rest
    | none => ordinary
  | _ => ordinary

/-! ### Laws -/

theorem live_eq_region {tag : Tag} {s rest : Text} {r : Region} (h : live tag s = region r rest) :
    '@' :: tag.word ++ s = r.source ++ rest := by
  cases tag with
  | ender kind =>
    obtain ⟨rfl, rfl⟩ : Region.ender kind = r ∧ s = rest := by simpa [live] using h
    simp [Region.source]
  | opener kind =>
    cases hc : closingParen? s with
    | none => simp [live, hc] at h
    | some found =>
      obtain ⟨rfl, rfl⟩ : Region.opener kind found.1 = r ∧ found.2 = rest := by
        simpa [live, hc] using h
      simp [Region.source, closingParen?_eq_some hc]

theorem escaped_eq_region {tag : Tag} {s rest : Text} {r : Region}
    (h : escaped tag s = region r rest) : '@' :: '@' :: tag.word ++ s = r.source ++ rest := by
  cases tag with
  | ender kind =>
    obtain ⟨rfl, rfl⟩ : Region.escapedEnder kind = r ∧ s = rest := by simpa [escaped] using h
    simp [Region.source]
  | opener kind =>
    cases hc : closingParen? s with
    | none =>
      obtain ⟨rfl, rfl⟩ : Region.escapedOpener kind none = r ∧ s = rest := by
        simpa [escaped, hc] using h
      simp [Region.source]
    | some found =>
      obtain ⟨rfl, rfl⟩ : Region.escapedOpener kind (some found.1) = r ∧ found.2 = rest := by
        simpa [escaped, hc] using h
      simp [Region.source, closingParen?_eq_some hc]

/-- A region's text and what is left make up the text. -/
theorem ofText_eq_region {s rest : Text} {r : Region} (h : Sighting.ofText s = region r rest) :
    s = r.source ++ rest := by
  unfold Sighting.ofText at h
  split at h
  · split at h
    · next ht => rw [(Tag.read?_eq_some ht).1]; exact escaped_eq_region h
    · simp at h
  · split at h
    · next ht => rw [(Tag.read?_eq_some ht).1]; exact live_eq_region h
    · simp at h
  · simp at h

theorem length_source_pos (r : Region) : 0 < r.source.length := by
  cases r with
  | escapedOpener kind args? => cases args? <;> simp [Region.source]
  | _ => simp [Region.source]

/-- What is left after a region is shorter. -/
theorem length_lt_of_ofText_eq_region {s rest : Text} {r : Region}
    (h : Sighting.ofText s = region r rest) : rest.length < s.length := by
  have := length_source_pos r
  rw [ofText_eq_region h, List.length_append]
  omega

end Sighting

end TemplateGuards
