import Mathlib.Data.Nat.Init
import Mathlib.Tactic.Common
import TemplateGuards.Dialect.Basic

/-!
The filling of a template, said without the order in which the template is read.  A template is
cut at its placeholders, and there is only one way to do so, for two placeholders never overlap.
Filling puts the values in at the cuts, and leaves the text between them alone.

* `Placeholder.Literal`: a text that holds no placeholder;
* `Placeholder.Cut`: placeholders with texts around them, which make up a text when each
  placeholder is exchanged for another text (`Cut.fill`), be it its own (`Cut.source`);
* `Placeholder.exists_cut`, `Placeholder.Cut.eq_of_source_eq`: every template has one cut;
* `Placeholder.fill_source`: filling a template fills its cut;
* `Dialect.renderOpener_cut`: the conditional that an opener becomes.
-/

namespace TemplateGuards

namespace Placeholder

/-! ### Placeholders in a text -/

/-- Does the text hold no placeholder? -/
def Literal (t : Text) : Prop := ∀ p : Placeholder, ¬ p.token <:+: t

lemma Literal.nil : Literal [] := by
  intro p h
  simp [token] at h

lemma Literal.of_infix {t u : Text} (h : Literal u) (htu : t <:+: u) : Literal t :=
  fun p hp => h p (hp.trans htu)

/-- Does a placeholder start the text, if it is not empty? -/
inductive Opens : Text → Prop
  | nil : Opens []
  | token (p : Placeholder) (s : Text) : Opens (p.token ++ s)

/-- A brace starts a placeholder and stands nowhere else in it. -/
lemma brace_not_mem_tail (p : Placeholder) : '\x7b' ∉ p.name ++ "\x7d" := by
  cases p <;> decide

/-- **Placeholders do not overlap**: one that starts in front of another ends there. -/
lemma token_prefix_of_prefix_append {p : Placeholder} {t u : Text} (ht : t ≠ []) (hu : Opens u)
    (h : p.token <+: t ++ u) : p.token <+: t := by
  obtain ⟨rest, hrest⟩ := h
  rcases List.append_eq_append_iff.mp hrest with ⟨v, rfl, -⟩ | ⟨v, htoken, rfl⟩
  · exact List.prefix_append _ v
  · cases v with
    | nil => exact ⟨[], by rw [List.append_nil, htoken, List.append_nil]⟩
    | cons c v =>
        obtain rfl : c = '\x7b' := by
          generalize hbraced : c :: v ++ rest = u at hu
          cases hu with
          | nil => cases hbraced
          | token q s => exact (List.cons.inj hbraced).1
        obtain ⟨d, t, rfl⟩ := List.exists_cons_of_ne_nil ht
        have htail : p.name ++ "\x7d" = t ++ '\x7b' :: v := (List.cons.inj htoken).2
        exact absurd (htail ▸ List.mem_append_right t List.mem_cons_self) (brace_not_mem_tail p)

/-- No placeholder starts in a literal text in front of another. -/
lemma Literal.not_token_prefix_append {t u : Text} (h : Literal t) (ht : t ≠ []) (hu : Opens u)
    (p : Placeholder) : ¬ p.token <+: t ++ u :=
  fun hp => h p (token_prefix_of_prefix_append ht hu hp).isInfix

/-- Two literal texts that end at the same placeholder of a text, or with the text, are equal. -/
lemma Literal.eq_of_append_eq {t t' u u' : Text} (ht : Literal t) (ht' : Literal t')
    (hu : Opens u) (hu' : Opens u') (h : t ++ u = t' ++ u') : t = t' := by
  -- where one text is longer, the placeholder that ends the other is in it
  have hnil : ∀ {s v w : Text}, Literal (s ++ v) → Opens (v ++ w) → Opens w → v = [] := by
    intro s v w hs hvw hw
    by_contra hv
    generalize heq : v ++ w = x at hvw
    cases hvw with
    | nil => exact hv (List.append_eq_nil_iff.mp heq).1
    | token p y =>
        have hprefix : p.token <+: v ++ w := heq ▸ List.prefix_append _ y
        exact (hs.of_infix (List.suffix_append s v).isInfix).not_token_prefix_append hv hw p hprefix
  rcases List.append_eq_append_iff.mp h with ⟨v, rfl, rfl⟩ | ⟨v, rfl, rfl⟩
  · rw [hnil ht' hu hu', List.append_nil]
  · rw [hnil ht hu' hu, List.append_nil]

/-! ### Reading and filling -/

lemma read?_eq_none_iff {s : Text} : read? s = none ↔ ∀ p : Placeholder, ¬ p.token <+: s := by
  have hall : ∀ p : Placeholder, p ∈ all := fun p => by cases p <;> decide
  simp [read?, List.find?_eq_none, hall]

lemma read?_token_append (p : Placeholder) (s : Text) : read? (p.token ++ s) = some p := by
  cases p <;> rfl

variable (value : Placeholder → Text)

lemma fill_nil : fill value [] = [] := by
  rw [fill.eq_def]
  rfl

/-- A placeholder is exchanged for its value. -/
lemma fill_token_append (p : Placeholder) (s : Text) :
    fill value (p.token ++ s) = value p ++ fill value s := by
  rw [fill.eq_def, read?_token_append]
  simp [token]

/-- Where no placeholder starts, the character is copied. -/
lemma fill_cons {c : Char} {s : Text} (h : read? (c :: s) = none) :
    fill value (c :: s) = c :: fill value s := by
  rw [fill.eq_def, h]

/-- A literal text is copied. -/
lemma fill_literal_append {t u : Text} (ht : Literal t) (hu : Opens u) :
    fill value (t ++ u) = t ++ fill value u := by
  induction t with
  | nil => rfl
  | cons c t ih =>
      have hnone : read? (c :: (t ++ u)) = none :=
        read?_eq_none_iff.mpr (ht.not_token_prefix_append (List.cons_ne_nil c t) hu)
      have htail : Literal t := ht.of_infix (List.suffix_cons c t).isInfix
      rw [List.cons_append, fill_cons value hnone, ih htail, List.cons_append]

/-! ### Cuts -/

/-- A template cut at its placeholders: the text in front of the first one, and each of them with
the text behind it. -/
structure Cut where
  first : Text
  rest : List (Placeholder × Text)
deriving DecidableEq, Repr

namespace Cut

/-- The text with another text in place of each placeholder. -/
def fill (value : Placeholder → Text) (c : Cut) : Text :=
  c.first ++ c.rest.flatMap fun (p, t) => value p ++ t

/-- The template that was cut. -/
def source (c : Cut) : Text := c.fill token

/-- Is the template cut at every placeholder? -/
def Complete (c : Cut) : Prop := Literal c.first ∧ ∀ part ∈ c.rest, Literal part.2

variable {t : Text} {rest : List (Placeholder × Text)} {p : Placeholder}

@[simp] lemma fill_nil (t : Text) : fill value ⟨t, []⟩ = t := List.append_nil t

lemma fill_cons (t : Text) (p : Placeholder) (u : Text) (rest : List (Placeholder × Text)) :
    fill value ⟨t, (p, u) :: rest⟩ = t ++ (value p ++ fill value ⟨u, rest⟩) := by
  simp [fill]

lemma source_cons (t : Text) (p : Placeholder) (u : Text) (rest : List (Placeholder × Text)) :
    source ⟨t, (p, u) :: rest⟩ = t ++ (p.token ++ source ⟨u, rest⟩) :=
  fill_cons token t p u rest

lemma Complete.tail {u : Text} (h : Complete ⟨t, (p, u) :: rest⟩) : Complete ⟨u, rest⟩ :=
  ⟨h.2 (p, u) List.mem_cons_self, fun part hpart => h.2 part (List.mem_cons_of_mem _ hpart)⟩

/-- A cut in two at a placeholder. -/
def join (c : Cut) (p : Placeholder) (c' : Cut) : Cut :=
  ⟨c.first, c.rest ++ (p, c'.first) :: c'.rest⟩

lemma source_join (c : Cut) (p : Placeholder) (c' : Cut) :
    (c.join p c').source = c.source ++ (p.token ++ c'.source) := by
  simp [join, source, fill]

lemma Complete.join {c c' : Cut} (h : c.Complete) (p : Placeholder) (h' : c'.Complete) :
    (c.join p c').Complete := by
  refine ⟨h.1, fun part hpart => ?_⟩
  rcases List.mem_append.mp hpart with hpart | hpart
  · exact h.2 part hpart
  · rcases List.mem_cons.mp hpart with rfl | hpart
    · exact h'.1
    · exact h'.2 part hpart

end Cut

/-- **Every template can be cut** at all its placeholders. -/
lemma exists_cut (template : Text) : ∃ c : Cut, c.Complete ∧ c.source = template := by
  induction hn : template.length using Nat.strong_induction_on generalizing template with
  | _ n ih =>
    cases hread : read? template with
    | some p =>
        obtain ⟨s, rfl⟩ := token_prefix_of_read? hread
        have hlt : s.length < n := by
          have := length_token_pos p
          rw [← hn, List.length_append]
          omega
        obtain ⟨⟨t, rest⟩, hc, rfl⟩ := ih s.length hlt s rfl
        refine ⟨⟨[], (p, t) :: rest⟩, ⟨.nil, ?_⟩, Cut.source_cons [] p t rest⟩
        simpa [Cut.Complete] using hc
    | none =>
        cases template with
        | nil => exact ⟨⟨[], []⟩, ⟨.nil, by simp⟩, rfl⟩
        | cons x s =>
            have hlt : s.length < n := by
              rw [← hn]
              exact Nat.lt_succ_self s.length
            obtain ⟨⟨t, rest⟩, hc, rfl⟩ := ih s.length hlt s rfl
            refine ⟨⟨x :: t, rest⟩, ⟨fun p hp => ?_, hc.2⟩, rfl⟩
            -- a placeholder is seen at the first character, or it is in the text behind it
            rcases List.infix_cons_iff.mp hp with hp | hp
            · exact read?_eq_none_iff.mp hread p (hp.trans (List.prefix_append (x :: t) _))
            · exact hc.1 p hp

namespace Cut

variable {t u : Text} {rest : List (Placeholder × Text)}

/-- Behind its first text a cut goes on with a placeholder, or ends. -/
lemma exists_source_eq (t : Text) (rest : List (Placeholder × Text)) :
    ∃ v, source ⟨t, rest⟩ = t ++ v ∧ Opens v := by
  cases rest with
  | nil => exact ⟨[], rfl, .nil⟩
  | cons part rest => exact ⟨_, source_cons t part.1 part.2 rest, .token part.1 _⟩

/-- **Filling a template** fills its cut. -/
lemma fill_source {c : Cut} (h : c.Complete) :
    Placeholder.fill value c.source = c.fill value := by
  obtain ⟨t, rest⟩ := c
  induction rest generalizing t with
  | nil => simpa [source, Placeholder.fill_nil] using fill_literal_append value h.1 .nil
  | cons part rest ih =>
      obtain ⟨p, u⟩ := part
      rw [source_cons, fill_literal_append value h.1 (.token p _), fill_token_append,
        ih u h.tail, fill_cons]

/-- The cuts of a template start with the same text. -/
lemma Complete.first_eq {c c' : Cut} (h : c.Complete) (h' : c'.Complete)
    (hsource : c.source = c'.source) : c.first = c'.first := by
  obtain ⟨v, hv, hopens⟩ := exists_source_eq c.first c.rest
  obtain ⟨v', hv', hopens'⟩ := exists_source_eq c'.first c'.rest
  exact h.1.eq_of_append_eq h'.1 hopens hopens' (hv.symm.trans (hsource.trans hv'))

/-- **There is one cut only** of a template at all its placeholders. -/
lemma Complete.eq_of_source_eq {c c' : Cut} (h : c.Complete) (h' : c'.Complete)
    (hsource : c.source = c'.source) : c = c' := by
  obtain ⟨t, rest⟩ := c
  obtain ⟨t', rest'⟩ := c'
  induction rest generalizing t t' rest' with
  | nil =>
      obtain rfl := h.first_eq h' hsource
      cases rest' with
      | nil => rfl
      | cons part rest' =>
          rw [source_cons] at hsource
          simp [source, token] at hsource
  | cons part rest ih =>
      obtain ⟨p, u⟩ := part
      obtain rfl := h.first_eq h' hsource
      cases rest' with
      | nil =>
          rw [source_cons] at hsource
          simp [source, token] at hsource
      | cons part' rest' =>
          obtain ⟨p', u'⟩ := part'
          rw [source_cons, source_cons, List.append_cancel_left_eq] at hsource
          obtain rfl : p = p' := by
            have hread := congrArg read? hsource
            rwa [read?_token_append, read?_token_append, Option.some.injEq] at hread
          have hrest := ih u h.tail u' rest' h'.tail (List.append_cancel_left hsource)
          obtain ⟨rfl, rfl⟩ := Cut.mk.inj hrest
          rfl

end Cut

end Placeholder

/-! ### The conditional of an opener -/

/-- **An opener is rendered by one substitution.**  The template for the form of its arguments can
be cut at its placeholders in exactly one way that leaves none in the texts between them, and the
conditional has the values of the placeholders there and the same texts between them. -/
theorem Dialect.renderOpener_cut (d : Dialect) (kind : Kind) (a : Arguments) :
    ∃ c : Placeholder.Cut, c.Complete ∧ c.source = d.template a ∧
      (∀ c' : Placeholder.Cut, c'.Complete → c'.source = d.template a → c' = c) ∧
      d.renderOpener kind a = c.fill (d.value kind a) := by
  obtain ⟨c, hc, hsource⟩ := Placeholder.exists_cut (d.template a)
  refine ⟨c, hc, hsource, fun c' hc' hsource' => ?_, ?_⟩
  · exact hc'.eq_of_source_eq hc (hsource'.trans hsource.symm)
  · rw [renderOpener, ← hsource, Placeholder.Cut.fill_source _ hc]

/-- Stray braces and a name that is cut short are text, and so is a placeholder in a value. -/
example :
    let d : Dialect :=
      { Preset.neutral.dialect with
        openSimple := "\x7b\x7buser\x7d\x7d\x7baux\x7bpolicy\x7d\x7bmethod\x7d"
        user := "\x7bpolicy\x7d" }
    d.renderOpener .denies (.simple "\x7baux\x7d") =
      "\x7b\x7bpolicy\x7d\x7d\x7baux\x7baux\x7ddenies".toList := by
  decide +kernel

end TemplateGuards
