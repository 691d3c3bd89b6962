import Mathlib.Logic.Function.Defs
import TemplateGuards.Proofs.Substitution

/-!
Different directives are rendered differently.  The names of the kinds are of one length, so that
two conditionals of a valid dialect that are equal have values of equal lengths at every cut of
their template, and then equal values.  All that is needed of the template is that it asks for the
values somewhere, which the check of a dialect asserts.

* `Placeholder.Cut.mem_placeholders`: a placeholder of a template is in its cut;
* `Placeholder.Cut.length_fill_add`: the lengths of two filled templates by the value that differs;
* `Placeholder.Cut.eq_of_fill_eq`: values of equal lengths are seen in the filled template;
* `Placeholder.eq_of_fill_eq`: all values are, where one of them may differ in length;
* `Dialect.check_eq_ok_iff`: what a valid dialect holds;
* `Dialect.eq_of_renderOpener_eq`: equal conditionals, where one value is not known to be the same;
* `Dialect.renderOpener_injective`: different directives of a valid dialect.
-/

namespace TemplateGuards

namespace Placeholder

namespace Cut

/-- The placeholders of the template, in order. -/
def placeholders (c : Cut) : List Placeholder := c.rest.map Prod.fst

@[simp] lemma placeholders_nil (t : Text) : placeholders ⟨t, []⟩ = [] := rfl

@[simp] lemma placeholders_cons (t : Text) (p : Placeholder) (u : Text)
    (rest : List (Placeholder × Text)) :
    placeholders ⟨t, (p, u) :: rest⟩ = p :: placeholders ⟨u, rest⟩ := rfl

/-- **A placeholder of a template** is in its cut: cut the two sides of it, and there is one cut
only. -/
lemma mem_placeholders {c : Cut} (h : c.Complete) {p : Placeholder} (hp : p.token <:+: c.source) :
    p ∈ c.placeholders := by
  obtain ⟨before, after, hsource⟩ := hp
  obtain ⟨l, hl, rfl⟩ := exists_cut before
  obtain ⟨r, hr, rfl⟩ := exists_cut after
  have hjoin : (l.join p r).source = c.source := by rw [source_join, ← List.append_assoc, hsource]
  rw [← (hl.join p hr).eq_of_source_eq h hjoin]
  simp [placeholders, join]

variable {value value' : Placeholder → Text}

/-- Where one value may differ in length, the lengths of two filled templates differ by that, as
often as it occurs. -/
lemma length_fill_add {x : Placeholder}
    (hlen : ∀ p, p ≠ x → (value p).length = (value' p).length) (c : Cut) :
    (c.fill value).length + c.placeholders.count x * (value' x).length =
      (c.fill value').length + c.placeholders.count x * (value x).length := by
  obtain ⟨t, rest⟩ := c
  induction rest generalizing t with
  | nil => simp
  | cons part rest ih =>
      obtain ⟨p, u⟩ := part
      have hrest := ih u
      simp only [fill_cons, List.length_append, placeholders_cons]
      by_cases hp : p = x
      · subst hp
        rw [List.count_cons_self, Nat.add_mul, Nat.add_mul]
        omega
      · rw [List.count_cons_of_ne hp, hlen p hp]
        omega

/-- **Values of equal lengths** are seen in the filled template. -/
lemma eq_of_fill_eq (hlen : ∀ p, (value p).length = (value' p).length) {c : Cut}
    (h : c.fill value = c.fill value') {p : Placeholder} (hp : p ∈ c.placeholders) :
    value p = value' p := by
  obtain ⟨t, rest⟩ := c
  induction rest generalizing t with
  | nil => simp at hp
  | cons part rest ih =>
      obtain ⟨q, u⟩ := part
      rw [fill_cons, fill_cons, List.append_cancel_left_eq] at h
      obtain ⟨hq, hrest⟩ := List.append_inj h (hlen q)
      rw [placeholders_cons, List.mem_cons] at hp
      rcases hp with rfl | hp
      · exact hq
      · exact ih u hrest hp

end Cut

variable {value value' : Placeholder → Text}

/-- **Where one value may differ in length** and the template asks for it, it does not differ in
length, and all values that the template asks for are equal. -/
lemma eq_of_fill_eq {template : Text} {x : Placeholder} (hx : x.token <:+: template)
    (hlen : ∀ p, p ≠ x → (value p).length = (value' p).length)
    (h : fill value template = fill value' template) {p : Placeholder}
    (hp : p.token <:+: template) : value p = value' p := by
  obtain ⟨c, hc, rfl⟩ := exists_cut template
  rw [Cut.fill_source _ hc, Cut.fill_source _ hc] at h
  have hxlen : (value x).length = (value' x).length := by
    have hcount : 0 < c.placeholders.count x :=
      List.count_pos_iff.mpr (Cut.mem_placeholders hc hx)
    have hadd := Cut.length_fill_add hlen c
    rw [h, Nat.add_left_cancel_iff] at hadd
    exact (Nat.eq_of_mul_eq_mul_left hcount hadd).symm
  refine Cut.eq_of_fill_eq (fun q => ?_) h (Cut.mem_placeholders hc hp)
  by_cases hq : q = x
  · rw [hq, hxlen]
  · exact hlen q hq

end Placeholder

/-! ### Kinds -/

namespace Kind

lemma length_name (kind : Kind) : kind.name.length = 6 := by cases kind <;> rfl

lemma name_injective : Function.Injective name := by
  intro kind kind' h
  cases kind <;> cases kind' <;> first | rfl | exact absurd h (by decide)

end Kind

/-! ### Conditionals of a valid dialect -/

namespace Dialect

/-- What a valid dialect holds. -/
lemma check_eq_ok_iff {d : Dialect} :
    d.check = .ok () ↔
      (∀ x ∈ required, x.2.token <:+: d.get x.1) ∧ Text.allBlank d.close = false := by
  unfold check
  split
  · next field p hfind =>
    have hlacks : ¬ p.token <:+: d.get field := by
      simpa [← Text.occurs_iff_infix] using List.find?_some hfind
    have hmem : (field, p) ∈ required := List.mem_of_find?_eq_some hfind
    exact iff_of_false (by simp) fun hall => hlacks (hall.1 (field, p) hmem)
  · next hfind =>
    have hasks : ∀ x ∈ required, x.2.token <:+: d.get x.1 := fun x hx => by
      simpa [Text.occurs_iff_infix] using List.find?_eq_none.mp hfind x hx
    rw [and_iff_right hasks]
    cases Text.allBlank d.close <;> simp

section Valid

variable {d : Dialect} (h : d.check = .ok ())
include h

/-- A valid dialect asks for the method, the policy and the user in both templates. -/
lemma token_infix_template (a : Arguments) {p : Placeholder} (hp : p ≠ .aux) :
    p.token <:+: d.template a := by
  have hasks := (check_eq_ok_iff.mp h).1
  cases a with
  | simple policy => exact hasks (.openSimple, p) (by cases p <;> simp [required] at hp ⊢)
  | complex policy aux => exact hasks (.openComplex, p) (by cases p <;> simp [required])

/-- Where there can be auxiliary arguments it asks for them. -/
lemma aux_token_infix_openComplex : Placeholder.aux.token <:+: d.openComplex :=
  (check_eq_ok_iff.mp h).1 (.openComplex, .aux) (by simp [required])

/-- Two conditionals from one template that are equal are of the same kind, and agree in the one
value that is not known to be the same. -/
lemma eq_of_renderOpener_eq {kind kind' : Kind} {a a' : Arguments} {x : Placeholder}
    (htemplate : d.template a' = d.template a) (hx : x.token <:+: d.template a)
    (hvalue : ∀ p, p ≠ .method → p ≠ x → d.value kind a p = d.value kind' a' p)
    (heq : d.renderOpener kind a = d.renderOpener kind' a') :
    kind = kind' ∧ d.value kind a x = d.value kind' a' x := by
  have hlen : ∀ p, p ≠ x → (d.value kind a p).length = (d.value kind' a' p).length := by
    intro p hp
    by_cases hmethod : p = .method
    · subst hmethod
      exact kind.length_name.trans kind'.length_name.symm
    · rw [hvalue p hmethod hp]
  have hmethod : Placeholder.method.token <:+: d.template a :=
    token_infix_template h a (by decide)
  rw [renderOpener, renderOpener, htemplate] at heq
  exact ⟨Kind.name_injective (Placeholder.eq_of_fill_eq hx hlen heq hmethod),
    Placeholder.eq_of_fill_eq hx hlen heq hx⟩

/-- With the same auxiliary arguments they agree in the policy. -/
lemma policy_eq_of_renderOpener_eq {kind kind' : Kind} {a a' : Arguments}
    (htemplate : d.template a' = d.template a) (haux : a.aux = a'.aux)
    (heq : d.renderOpener kind a = d.renderOpener kind' a') :
    kind = kind' ∧ a.policy = a'.policy := by
  have hpolicy : Placeholder.policy.token <:+: d.template a :=
    token_infix_template h a (by decide)
  refine eq_of_renderOpener_eq h htemplate hpolicy ?_ heq
  intro p hmethod hpolicy
  cases p with
  | method => exact absurd rfl hmethod
  | policy => exact absurd rfl hpolicy
  | user => rfl
  | aux => exact congrArg d.auxSeparator.intercalate haux

end Valid

/-- **Different directives are rendered differently** by a valid dialect: by their kind and policy
where the auxiliary arguments are the same, and by their kind and the auxiliary arguments, joined,
where the policy is.  So a directive that allows never compiles to what one that denies does. -/
theorem renderOpener_injective (d : Dialect) (h : d.check = .ok ()) :
    (Function.Injective fun x : Kind × Text => d.renderOpener x.1 (.simple x.2)) ∧
    (∀ aux, Function.Injective fun x : Kind × Text => d.renderOpener x.1 (.complex x.2 aux)) ∧
    (∀ policy kind kind' aux aux',
      d.renderOpener kind (.complex policy aux) = d.renderOpener kind' (.complex policy aux') ↔
        kind = kind' ∧ d.auxSeparator.intercalate aux = d.auxSeparator.intercalate aux') ∧
    ∀ a, d.renderOpener .allows a ≠ d.renderOpener .denies a := by
  refine ⟨?simple, ?complex, ?aux, ?kind⟩
  case simple =>
    rintro ⟨kind, policy⟩ ⟨kind', policy'⟩ heq
    have hsame : kind = kind' ∧
        (Arguments.simple policy).policy = (Arguments.simple policy').policy :=
      policy_eq_of_renderOpener_eq h rfl rfl heq
    exact Prod.ext_iff.mpr hsame
  case complex =>
    rintro aux ⟨kind, policy⟩ ⟨kind', policy'⟩ heq
    have hsame : kind = kind' ∧
        (Arguments.complex policy aux).policy = (Arguments.complex policy' aux).policy :=
      policy_eq_of_renderOpener_eq h rfl rfl heq
    exact Prod.ext_iff.mpr hsame
  case aux =>
    intro policy kind kind' aux aux'
    constructor
    · intro heq
      have hvalue : ∀ p, p ≠ .method → p ≠ .aux →
          d.value kind (.complex policy aux) p = d.value kind' (.complex policy aux') p := by
        intro p hmethod haux
        cases p with
        | method => exact absurd rfl hmethod
        | policy => rfl
        | user => rfl
        | aux => exact absurd rfl haux
      have hsame : kind = kind' ∧
          d.value kind (.complex policy aux) .aux = d.value kind' (.complex policy aux') .aux :=
        eq_of_renderOpener_eq h rfl (aux_token_infix_openComplex h) hvalue heq
      exact hsame
    · rintro ⟨rfl, hjoined⟩
      have hvalue : d.value kind (.complex policy aux) = d.value kind (.complex policy aux') := by
        funext p
        cases p with
        | aux => exact hjoined
        | _ => rfl
      exact congrArg (fun value => Placeholder.fill value d.openComplex) hvalue
  case kind =>
    intro a heq
    have hkind := (policy_eq_of_renderOpener_eq h rfl rfl heq).1
    exact absurd hkind (by decide)

/-- A dialect that asks for the policy and the auxiliary arguments more than once, with nothing
between them, and a separator that occurs in an argument. -/
theorem renderOpener_injective_repeated :
    let d : Dialect :=
      { preamble := []
        openSimple := "\x7bpolicy\x7d\x7bpolicy\x7d\x7bmethod\x7d\x7buser\x7d"
        openComplex := "\x7baux\x7d\x7bpolicy\x7d\x7baux\x7d\x7bmethod\x7d\x7buser\x7d\x7bpolicy\x7d"
        close := "end"
        user := "allows"
        auxSeparator := "+" }
    d.check = .ok () ∧
    (Function.Injective fun x : Kind × Text => d.renderOpener x.1 (.simple x.2)) ∧
    (∀ aux, Function.Injective fun x : Kind × Text => d.renderOpener x.1 (.complex x.2 aux)) ∧
    (∀ policy kind kind' aux aux',
      d.renderOpener kind (.complex policy aux) = d.renderOpener kind' (.complex policy aux') ↔
        kind = kind' ∧ d.auxSeparator.intercalate aux = d.auxSeparator.intercalate aux') ∧
    (∀ a, d.renderOpener .allows a ≠ d.renderOpener .denies a) ∧
    d.renderOpener .denies (.complex "p" ["a+b", "c"]) =
      d.renderOpener .denies (.complex "p" ["a", "b+c"]) := by
  intro d
  have h : d.check = .ok () := by decide +kernel
  obtain ⟨hsimple, hcomplex, haux, hkind⟩ := renderOpener_injective d h
  exact ⟨h, hsimple, hcomplex, haux, hkind, (haux _ _ _ _ _).mpr ⟨rfl, by decide⟩⟩

end Dialect

end TemplateGuards
