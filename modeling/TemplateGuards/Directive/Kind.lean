import TemplateGuards.Text

/-!
The two kinds of directive and the tags that spell them.  A block is opened by `@allows(` or
`@denies(`, up to a balancing parenthesis, and ended by `@endallows` or `@enddenies`.  A `Tag`
is what follows the `@`; an end tag is one only where no letter, digit or underscore of ASCII
continues the name.

* `Tag.read?`: the tag at the start of a text;
* `Tag.read?_eq_some`: the tag's word and what is left make up the text.
-/

namespace TemplateGuards

/-- The kinds of directive. -/
inductive Kind
  /-- The guarded block is for those whom the policy allows. -/
  | allows
  /-- The guarded block is for those whom the policy denies. -/
  | denies
deriving DecidableEq, Repr

/-- The name of a kind, which is also the enforcer's method that it calls. -/
def Kind.name : Kind → Text
  | .allows => "allows"
  | .denies => "denies"

/-- What follows the `@` of a marker. -/
inductive Tag
  /-- The start of an opener, up to its parenthesis. -/
  | opener (kind : Kind)
  /-- An end marker. -/
  | ender (kind : Kind)
deriving DecidableEq, Repr

namespace Tag

/-- Every tag. -/
def all : List Tag := [.opener .allows, .opener .denies, .ender .allows, .ender .denies]

/-- The word that spells a tag. -/
def word : Tag → Text
  | opener kind => kind.name ++ "("
  | ender kind => "end" ++ kind.name

/-- Does the character continue a name?  Names are ASCII. -/
def continuesName (c : Char) : Bool := c.isAlphanum || c == '_'

/-- May the tag be followed by this text? -/
def admits : Tag → Text → Bool
  | ender _, c :: _ => !continuesName c
  | _, _ => true

/-- What is left of a text after the tag at its start. -/
def after? (tag : Tag) (s : Text) : Option Text :=
  if tag.word.isPrefixOf s && tag.admits (s.drop tag.word.length) then
    some (s.drop tag.word.length)
  else none

/-- The tag at the start of a text, and what follows it. -/
def read? (s : Text) : Option (Tag × Text) :=
  all.findSome? fun tag => (tag.after? s).map (tag, ·)

/-! ### Laws -/

theorem after?_eq_some {tag : Tag} {s rest : Text} (h : tag.after? s = some rest) :
    s = tag.word ++ rest ∧ tag.admits rest = true := by
  unfold after? at h
  split at h
  · next hc =>
    obtain rfl : s.drop tag.word.length = rest := by simpa using h
    simp only [Bool.and_eq_true, List.isPrefixOf_iff_prefix] at hc
    obtain ⟨t, rfl⟩ := hc.1
    simpa using hc.2
  · simp at h

/-- The tag's word and what is left make up the text. -/
theorem read?_eq_some {tag : Tag} {s rest : Text} (h : read? s = some (tag, rest)) :
    s = tag.word ++ rest ∧ tag.admits rest = true := by
  obtain ⟨t, -, ht⟩ := List.exists_of_findSome?_eq_some h
  obtain ⟨r, hr, heq⟩ := Option.map_eq_some_iff.1 ht
  obtain ⟨rfl, rfl⟩ : t = tag ∧ r = rest := by simpa using heq
  exact after?_eq_some hr

end Tag

end TemplateGuards
