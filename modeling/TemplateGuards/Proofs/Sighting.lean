import TemplateGuards.Directive.Outline
import TemplateGuards.Proofs.Parenthesis

/-!
What the reader of a template sees at one place, said without the order in which it tries the
tags, and the steps of the scan that follow from it.

* `Starts`: a literal (an `@` with a tag, at a boundary) starts a text;
* `Sighting.ofText_eq_region_iff`, `Sighting.ofText_eq_unterminated_iff`,
  `Sighting.not_starts_of_ordinary`: what each sighting says of the text;
* `Outline.scan_of_ordinary`, `Outline.scan_of_live`, `Outline.scan_of_escaped`,
  `Outline.scan_of_unterminated`: one step of the scan for each sighting;
* `Outline.Scanned`: a scan that succeeds, step by step.
-/

namespace TemplateGuards

/-! ### Tags -/

namespace Tag

/-- A tag is read where its word stands at a boundary. -/
lemma read?_word_append {tag : Tag} {rest : Text} (h : tag.admits rest = true) :
    read? (tag.word ++ rest) = some (tag, rest) := by
  have hself : tag.after? (tag.word ++ rest) = some rest := by
    simp [after?, h]
  have hother : ∀ other : Tag, other ≠ tag → other.after? (tag.word ++ rest) = none := by
    intro other hne
    have hword : other.word.isPrefixOf (tag.word ++ rest) = false := by
      rcases other with ⟨_ | _⟩ | ⟨_ | _⟩ <;> rcases tag with ⟨_ | _⟩ | ⟨_ | _⟩ <;>
        first | rfl | exact absurd rfl hne
    simp [after?, hword]
  rcases tag with ⟨_ | _⟩ | ⟨_ | _⟩ <;>
    simp [read?, all, hself, hother]

/-- A word starts with a letter. -/
lemma word_eq_cons (tag : Tag) : ∃ c cs, tag.word = c :: cs ∧ c ≠ '@' := by
  rcases tag with ⟨_ | _⟩ | ⟨_ | _⟩ <;> exact ⟨_, _, rfl, by decide⟩

lemma at_not_mem_word (tag : Tag) : '@' ∉ tag.word := by
  rcases tag with ⟨_ | _⟩ | ⟨_ | _⟩ <;> decide

end Tag

/-- Does a literal start the text, an `@` with a tag at a boundary, with `rest` after it? -/
def Starts (s : Text) (tag : Tag) (rest : Text) : Prop :=
  s = '@' :: (tag.word ++ rest) ∧ tag.admits rest = true

/-! ### Sightings -/

/-- Is the region live? -/
def Region.isLive : Region → Bool
  | opener .. | ender _ => true
  | escapedOpener .. | escapedEnder _ => false

/-- Does the region end where `rest` begins?  An opener ends with the first parenthesis that
closes its own, an escaped opener without one ends with its tag, and an end tag ends at a
boundary. -/
def Region.EndsAt : Region → Text → Prop
  | opener _ args, rest => FirstClosing (args ++ ')' :: rest) args rest
  | ender kind, rest => (Tag.ender kind).admits rest = true
  | escapedOpener _ (some args), rest => FirstClosing (args ++ ')' :: rest) args rest
  | escapedOpener _ none, rest => Unclosed rest
  | escapedEnder kind, rest => (Tag.ender kind).admits rest = true

/-- A live region is a marker at its place. -/
lemma Region.marker?_eq_some_iff {r : Region} {place : Place} {m : Marker} :
    r.marker? place = some m ↔ r.isLive = true ∧ m.region = r ∧ m.place = place := by
  constructor
  · intro h
    cases r <;> simp only [marker?, Option.some.injEq, reduceCtorEq] at h <;> subst h <;>
      exact ⟨rfl, rfl, rfl⟩
  · rintro ⟨hlive, rfl, rfl⟩
    cases m <;> rfl

lemma Region.marker?_eq_none_iff {r : Region} {place : Place} :
    r.marker? place = none ↔ r.isLive = false := by
  cases r <;> simp [marker?, isLive]

/-- A live region starts with a literal. -/
lemma Region.exists_starts {r : Region} {rest : Text} (h : r.EndsAt rest)
    (hlive : r.isLive = true) : ∃ tag after, Starts (r.source ++ rest) tag after := by
  cases r with
  | opener kind args =>
      exact ⟨.opener kind, args ++ ')' :: rest, by simp [Region.source], rfl⟩
  | ender kind => exact ⟨.ender kind, rest, by simp [Region.source], h⟩
  | escapedOpener kind args? => simp [isLive] at hlive
  | escapedEnder kind => simp [isLive] at hlive

/-- An escaped region is an `@` with a literal behind it. -/
lemma Region.exists_starts_tail {r : Region} {rest : Text} (h : r.EndsAt rest)
    (hlive : r.isLive = false) :
    ∃ s tag after, r.source ++ rest = '@' :: s ∧ Starts s tag after := by
  cases r with
  | opener kind args => simp [isLive] at hlive
  | ender kind => simp [isLive] at hlive
  | escapedOpener kind args? =>
      cases args? with
      | none => exact ⟨_, .opener kind, rest, rfl, rfl, rfl⟩
      | some args =>
          exact ⟨_, .opener kind, args ++ ')' :: rest, rfl, by simp, rfl⟩
  | escapedEnder kind => exact ⟨_, .ender kind, rest, rfl, rfl, h⟩

/-- Where a literal starts, no escaped region stands. -/
lemma Region.isLive_of_starts {r : Region} {rest after : Text} {tag : Tag} (h : r.EndsAt rest)
    (hs : Starts (r.source ++ rest) tag after) : r.isLive = true := by
  cases hlive : r.isLive with
  | true => rfl
  | false =>
      obtain ⟨s, tag', after', heq, hs', -⟩ := exists_starts_tail h hlive
      obtain ⟨c, cs, hword, hc⟩ := tag.word_eq_cons
      have hsame := heq.symm.trans hs.1
      rw [hs', hword] at hsame
      simp only [List.cons_append, List.cons.injEq, true_and] at hsame
      exact absurd hsame.1.symm hc

namespace Sighting

lemma ofText_of_starts {s rest : Text} {tag : Tag} (h : Starts s tag rest) :
    ofText s = live tag rest := by
  obtain ⟨rfl, hadm⟩ := h
  have hread := Tag.read?_word_append hadm
  obtain ⟨c, cs, hword, hc⟩ := tag.word_eq_cons
  rw [hword, List.cons_append] at hread ⊢
  simp [ofText, hc, hread]

lemma ofText_of_starts_tail {s rest : Text} {tag : Tag} (h : Starts s tag rest) :
    ofText ('@' :: s) = escaped tag rest := by
  obtain ⟨rfl, hadm⟩ := h
  simp [ofText, Tag.read?_word_append hadm]

/-- A sighting is ordinary, or there is a literal here or right behind an `@`. -/
lemma ofText_cases (s : Text) :
    ofText s = ordinary ∨ (∃ tag rest, Starts s tag rest) ∨
      ∃ s' tag rest, s = '@' :: s' ∧ Starts s' tag rest := by
  unfold ofText
  split
  · split
    · next ht => exact Or.inr (Or.inr ⟨_, _, _, rfl, congrArg _ (Tag.read?_eq_some ht).1,
        (Tag.read?_eq_some ht).2⟩)
    · exact Or.inl rfl
  · split
    · next ht => exact Or.inr (Or.inl ⟨_, _, congrArg _ (Tag.read?_eq_some ht).1,
        (Tag.read?_eq_some ht).2⟩)
    · exact Or.inl rfl
  · exact Or.inl rfl

lemma live_ne_ordinary (tag : Tag) (rest : Text) : live tag rest ≠ ordinary := by
  cases tag with
  | ender kind => simp [live]
  | opener kind => cases h : closingParen? rest <;> simp [live, h]

lemma escaped_ne_ordinary (tag : Tag) (rest : Text) : escaped tag rest ≠ ordinary := by
  cases tag with
  | ender kind => simp [escaped]
  | opener kind => cases h : closingParen? rest <;> simp [escaped, h]

/-- No literal starts at ordinary text. -/
lemma not_starts_of_ordinary {s : Text} (h : ofText s = ordinary) (tag : Tag) (rest : Text) :
    ¬ Starts s tag rest := by
  intro hs
  exact live_ne_ordinary tag rest ((ofText_of_starts hs).symm.trans h)

/-- No literal starts behind an ordinary `@`. -/
lemma not_starts_tail_of_ordinary {s : Text} (h : ofText ('@' :: s) = ordinary) (tag : Tag)
    (rest : Text) : ¬ Starts s tag rest := by
  intro hs
  exact escaped_ne_ordinary tag rest ((ofText_of_starts_tail hs).symm.trans h)

lemma endsAt_of_live_eq_region {tag : Tag} {s rest : Text} {r : Region}
    (h : live tag s = region r rest) (hadm : tag.admits s = true) : r.EndsAt rest := by
  cases tag with
  | ender kind =>
      obtain ⟨rfl, rfl⟩ : Region.ender kind = r ∧ s = rest := by simpa [live] using h
      exact hadm
  | opener kind =>
      cases hc : closingParen? s with
      | none => simp [live, hc] at h
      | some found =>
          obtain ⟨rfl, rfl⟩ : Region.opener kind found.1 = r ∧ found.2 = rest := by
            simpa [live, hc] using h
          exact (closingParen?_eq_some_iff.mp hc).self

lemma endsAt_of_escaped_eq_region {tag : Tag} {s rest : Text} {r : Region}
    (h : escaped tag s = region r rest) (hadm : tag.admits s = true) : r.EndsAt rest := by
  cases tag with
  | ender kind =>
      obtain ⟨rfl, rfl⟩ : Region.escapedEnder kind = r ∧ s = rest := by simpa [escaped] using h
      exact hadm
  | opener kind =>
      cases hc : closingParen? s with
      | none =>
          obtain ⟨rfl, rfl⟩ : Region.escapedOpener kind none = r ∧ s = rest := by
            simpa [escaped, hc] using h
          exact closingParen?_eq_none_iff.mp hc
      | some found =>
          obtain ⟨rfl, rfl⟩ : Region.escapedOpener kind (some found.1) = r ∧ found.2 = rest := by
            simpa [escaped, hc] using h
          exact (closingParen?_eq_some_iff.mp hc).self

/-- A region that ends is seen where its text stands. -/
lemma ofText_source_append {r : Region} {rest : Text} (h : r.EndsAt rest) :
    ofText (r.source ++ rest) = region r rest := by
  cases r with
  | opener kind args =>
      have hs : Starts ((Region.opener kind args).source ++ rest) (.opener kind)
          (args ++ ')' :: rest) := ⟨by simp [Region.source], rfl⟩
      rw [ofText_of_starts hs]
      simp [live, closingParen?_eq_some_iff.mpr h]
  | ender kind =>
      have hs : Starts ((Region.ender kind).source ++ rest) (.ender kind) rest :=
        ⟨by simp [Region.source], h⟩
      rw [ofText_of_starts hs]
      rfl
  | escapedOpener kind args? =>
      cases args? with
      | none =>
          have hs : Starts ('@' :: ((Tag.opener kind).word ++ rest)) (.opener kind) rest :=
            ⟨rfl, rfl⟩
          simpa [Region.source, escaped, closingParen?_eq_none_iff.mpr h] using
            ofText_of_starts_tail hs
      | some args =>
          have hs : Starts ('@' :: ((Tag.opener kind).word ++ (args ++ ')' :: rest)))
              (.opener kind) (args ++ ')' :: rest) := ⟨rfl, rfl⟩
          simpa [Region.source, escaped, closingParen?_eq_some_iff.mpr h] using
            ofText_of_starts_tail hs
  | escapedEnder kind =>
      have hs : Starts ('@' :: ((Tag.ender kind).word ++ rest)) (.ender kind) rest := ⟨rfl, h⟩
      simpa [Region.source, escaped] using ofText_of_starts_tail hs

/-- A region is seen exactly where its text stands and it ends. -/
lemma ofText_eq_region_iff {s rest : Text} {r : Region} :
    ofText s = region r rest ↔ s = r.source ++ rest ∧ r.EndsAt rest := by
  constructor
  · intro h
    refine ⟨ofText_eq_region h, ?_⟩
    rcases ofText_cases s with ho | ⟨tag, after, hs⟩ | ⟨s', tag, after, rfl, hs⟩
    · rw [ho] at h
      simp at h
    · rw [ofText_of_starts hs] at h
      exact endsAt_of_live_eq_region h hs.2
    · rw [ofText_of_starts_tail hs] at h
      exact endsAt_of_escaped_eq_region h hs.2
  · rintro ⟨rfl, hend⟩
    exact ofText_source_append hend

/-- An opener is unterminated exactly where nothing closes it. -/
lemma ofText_eq_unterminated_iff {s : Text} {kind : Kind} :
    ofText s = unterminated kind ↔
      ∃ rest, s = '@' :: ((Tag.opener kind).word ++ rest) ∧ Unclosed rest := by
  constructor
  · intro h
    rcases ofText_cases s with ho | ⟨tag, rest, hs⟩ | ⟨s', tag, rest, rfl, hs⟩
    · rw [ho] at h
      simp at h
    · rw [ofText_of_starts hs] at h
      cases tag with
      | ender kind' => simp [live] at h
      | opener kind' =>
          cases hc : closingParen? rest with
          | some found => simp [live, hc] at h
          | none =>
              obtain rfl : kind' = kind := by simpa [live, hc] using h
              exact ⟨rest, hs.1, closingParen?_eq_none_iff.mp hc⟩
    · rw [ofText_of_starts_tail hs] at h
      cases tag with
      | ender kind' => simp [escaped] at h
      | opener kind' => cases hc : closingParen? rest <;> simp [escaped, hc] at h
  · rintro ⟨rest, rfl, hun⟩
    have hs : Starts ('@' :: ((Tag.opener kind).word ++ rest)) (.opener kind) rest := ⟨rfl, rfl⟩
    rw [ofText_of_starts hs]
    simp [live, closingParen?_eq_none_iff.mpr hun]

end Sighting

/-! ### Steps of the scan -/

namespace Outline

variable {place : Place} {gap s rest : Text} {r : Region}

lemma scan_nil : scan place gap [] = .ok ⟨[], gap.reverse⟩ := by
  rw [scan]
  rfl

/-- An ordinary character goes into the gap. -/
lemma scan_of_ordinary {c : Char} (h : Sighting.ofText (c :: s) = .ordinary) :
    scan place gap (c :: s) = scan (place.next c) (c :: gap) s := by
  rw [scan]
  split <;> simp_all

/-- A live region ends the gap. -/
lemma scan_of_live {m : Marker} (h : Sighting.ofText s = .region r rest)
    (hm : r.marker? place = some m) :
    scan place gap s = (scan (place.advance r.source) [] rest).map (mark gap.reverse m) := by
  rw [scan]
  split <;> simp_all

/-- An escaped region goes into the gap. -/
lemma scan_of_escaped (h : Sighting.ofText s = .region r rest) (hm : r.marker? place = none) :
    scan place gap s = scan (place.advance r.source) (r.source.reverse ++ gap) rest := by
  rw [scan]
  split <;> simp_all

/-- An unterminated opener ends the scan. -/
lemma scan_of_unterminated {kind : Kind} (h : Sighting.ofText s = .unterminated kind) :
    scan place gap s = .error (.unterminated kind place.position) := by
  rw [scan]
  split <;> simp_all

/-! ### Scans that succeed -/

/-- From the place and the gap the scan of a text comes to an outline: a live region sets its
marker, and an escaped region and an ordinary character go into the gap. -/
inductive Scanned : Place → Text → Text → Outline → Prop
  | nil (place : Place) (gap : Text) : Scanned place gap [] ⟨[], gap.reverse⟩
  | ordinary {place : Place} {gap s : Text} {c : Char} {o : Outline}
      (hc : Sighting.ofText (c :: s) = .ordinary) (h : Scanned (place.next c) (c :: gap) s o) :
      Scanned place gap (c :: s) o
  | live {place : Place} {gap rest : Text} {r : Region} {m : Marker} {o : Outline}
      (hend : r.EndsAt rest) (hm : r.marker? place = some m)
      (h : Scanned (place.advance r.source) [] rest o) :
      Scanned place gap (r.source ++ rest) (mark gap.reverse m o)
  | escaped {place : Place} {gap rest : Text} {r : Region} {o : Outline}
      (hend : r.EndsAt rest) (hm : r.marker? place = none)
      (h : Scanned (place.advance r.source) (r.source.reverse ++ gap) rest o) :
      Scanned place gap (r.source ++ rest) o

lemma scanned_of_scan_eq_ok {o : Outline} (h : scan place gap s = .ok o) :
    Scanned place gap s o := by
  fun_induction scan place gap s generalizing o with
  | case1 => simp at h
  | case2 place gap s r rest hr _ m hm ih =>
      obtain ⟨rfl, hend⟩ := Sighting.ofText_eq_region_iff.mp hr
      cases ho : scan (place.advance r.source) [] rest with
      | error f => simp [ho, Except.map] at h
      | ok o' =>
          obtain rfl : mark gap.reverse m o' = o := by simpa [ho, Except.map] using h
          exact .live hend hm (ih ho)
  | case3 place gap s r rest hr _ hm ih =>
      obtain ⟨rfl, hend⟩ := Sighting.ofText_eq_region_iff.mp hr
      exact .escaped hend hm (ih h)
  | case4 place gap =>
      obtain rfl : (⟨[], gap.reverse⟩ : Outline) = o := by simpa using h
      exact .nil place gap
  | case5 place gap c cs hc ih => exact .ordinary hc (ih h)

lemma Scanned.scan_eq_ok {o : Outline} (h : Scanned place gap s o) :
    scan place gap s = .ok o := by
  induction h with
  | nil => exact scan_nil
  | ordinary hc _ ih => rw [scan_of_ordinary hc, ih]
  | live hend hm _ ih =>
      rw [scan_of_live (Sighting.ofText_source_append hend) hm, ih]
      rfl
  | escaped hend hm _ ih => rw [scan_of_escaped (Sighting.ofText_source_append hend) hm, ih]

/-- **A scan succeeds** exactly where its steps lead to the outline. -/
lemma scan_eq_ok_iff {o : Outline} : scan place gap s = .ok o ↔ Scanned place gap s o :=
  ⟨scanned_of_scan_eq_ok, Scanned.scan_eq_ok⟩

end Outline

end TemplateGuards
