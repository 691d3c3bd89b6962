import Mathlib.Tactic.Common
import TemplateGuards.Text.Quotation

/-!
The closing parenthesis of an opener, said without the search for it: it is the first `)` outside
literals before which, outside literals, as many parentheses were closed as opened.

* `Quotation.after`, `Quotation.bare`: where a reader stands after a text, and the characters of
  the text outside literals;
* `Quotation.Closes`: a `)` right after the text closes the parenthesis before it;
* `Quotation.depth?`, `Quotation.depthAfter?`: the number of open parentheses after one character,
  and after a text (`Quotation.count_of_depthAfter?`);
* `Quotation.closing?_eq_some_iff`, `Quotation.closing?_eq_none_iff`: the search for a closing
  parenthesis by that number;
* `FirstClosing`, `Unclosed`: the first such `)` of a text, and a text without one;
* `closingParen?_eq_some_iff`, `closingParen?_eq_none_iff`: the search finds it.
-/

namespace TemplateGuards

namespace Quotation

/-- Where a reader stands after a text. -/
def after (q : Quotation) (t : Text) : Quotation := t.foldl step q

/-- The characters of a text that belong to no literal. -/
def bare : Quotation → Text → Text
  | _, [] => []
  | q, c :: cs => if q.covers c then bare (q.step c) cs else c :: bare (q.step c) cs

@[simp] lemma after_nil (q : Quotation) : q.after [] = q := rfl

@[simp] lemma after_cons (q : Quotation) (c : Char) (t : Text) :
    q.after (c :: t) = (q.step c).after t := rfl

lemma after_append (q : Quotation) (t u : Text) : q.after (t ++ u) = (q.after t).after u :=
  List.foldl_append

lemma eq_outside_of_not_covers {q : Quotation} {c : Char} (h : q.covers c = false) :
    q = outside := by
  cases q <;> simp_all [covers]

/-- A character outside literals leaves the reader outside. -/
lemma step_of_not_covers {q : Quotation} {c : Char} (h : q.covers c = false) :
    q.step c = outside := by
  obtain rfl := eq_outside_of_not_covers h
  simpa [covers, step] using h

/-- Does a `)` right after the text, outside literals, close a parenthesis right before it inside
`depth` others?  Then it closes as many parentheses as were opened, and the `depth` others. -/
def Closes (q : Quotation) (depth : Nat) (t : Text) : Prop :=
  q.after t = outside ∧ (q.bare t).count ')' = (q.bare t).count '(' + depth

/-! ### The number of open parentheses -/

/-- The number of open parentheses after one more character; `none` at a `)` outside literals
where none is open. -/
def depth? (q : Quotation) (depth : Nat) (c : Char) : Option Nat :=
  if q.covers c then some depth
  else if c = '(' then some (depth + 1)
  else if c = ')' then if depth = 0 then none else some (depth - 1)
  else some depth

/-- The number of open parentheses after a text; `none` where the text closes one that was not
open before and that it has not opened. -/
def depthAfter? : Quotation → Nat → Text → Option Nat
  | _, depth, [] => some depth
  | q, depth, c :: cs => (q.depth? depth c).bind (depthAfter? (q.step c) · cs)

variable {q : Quotation} {depth depth' n : Nat} {c : Char} {t u : Text}

lemma depth?_of_covers (h : q.covers c = true) (depth : Nat) : q.depth? depth c = some depth :=
  if_pos h

/-- Other characters than parentheses leave the number as it is. -/
lemma depth?_of_ne (ho : c ≠ '(') (hc : c ≠ ')') (q : Quotation) (depth : Nat) :
    q.depth? depth c = some depth := by
  simp [depth?, ho, hc]

lemma depthAfter?_cons_eq_some_iff :
    depthAfter? q depth (c :: t) = some n ↔
      ∃ mid, q.depth? depth c = some mid ∧ depthAfter? (q.step c) mid t = some n := by
  rw [depthAfter?, Option.bind_eq_some_iff]

/-- A text in two parts is read part after part. -/
lemma depthAfter?_append_eq_some_iff :
    depthAfter? q depth (t ++ u) = some n ↔
      ∃ mid, depthAfter? q depth t = some mid ∧ depthAfter? (q.after t) mid u = some n := by
  induction t generalizing q depth with
  | nil => simp [depthAfter?]
  | cons c t ih =>
      simp only [List.cons_append, depthAfter?_cons_eq_some_iff, ih, after_cons]
      constructor
      · rintro ⟨first, hc, mid, ht, hu⟩
        exact ⟨mid, ⟨first, hc, ht⟩, hu⟩
      · rintro ⟨mid, ⟨first, hc, ht⟩, hu⟩
        exact ⟨first, hc, mid, ht, hu⟩

lemma depth?_eq_none_iff :
    q.depth? depth c = none ↔ q.covers c = false ∧ c = ')' ∧ depth = 0 := by
  unfold depth?
  split_ifs <;> simp_all

/-- What can be read to its end can be read in part. -/
lemma depthAfter?_ne_none_of_append (h : q.depthAfter? depth (t ++ u) ≠ none) :
    q.depthAfter? depth t ≠ none := by
  obtain ⟨n, hn⟩ := Option.ne_none_iff_exists'.mp h
  obtain ⟨mid, hmid, -⟩ := depthAfter?_append_eq_some_iff.mp hn
  simp [hmid]

lemma bare_cons (q : Quotation) (c : Char) (t : Text) :
    q.bare (c :: t) = q.bare [c] ++ (q.step c).bare t := by
  simp only [bare]
  split <;> rfl

/-- One character moves the depth by the parentheses that it opens and closes. -/
lemma count_of_depth? (h : q.depth? depth c = some depth') :
    (q.bare [c]).count '(' + depth = (q.bare [c]).count ')' + depth' := by
  unfold depth? at h
  simp only [bare]
  split_ifs at h with hcov hopening hclosing hzero
  · cases h
    simp [hcov]
  · cases h
    subst hopening
    simp [hcov, Nat.add_comm]
  · cases h
    subst hclosing
    simp [hcov]
    omega
  · cases h
    simp [hcov, hopening, hclosing]

/-- **The depth behind a text** is the one before it, with the parentheses opened in the text and
without those closed. -/
lemma count_of_depthAfter? (h : q.depthAfter? depth t = some n) :
    (q.bare t).count '(' + depth = (q.bare t).count ')' + n := by
  induction t generalizing q depth with
  | nil =>
      cases h
      rfl
  | cons c t ih =>
      obtain ⟨mid, hc, ht⟩ := depthAfter?_cons_eq_some_iff.mp h
      have hfirst := count_of_depth? hc
      have hrest := ih ht
      rw [bare_cons, List.count_append, List.count_append]
      omega

/-- No text is read past a `)` that closes the parenthesis before it. -/
lemma Closes.depthAfter?_eq_none (h : outside.Closes 0 t) :
    outside.depthAfter? 0 (t ++ [')']) = none := by
  by_contra hread
  obtain ⟨n, hn⟩ := Option.ne_none_iff_exists'.mp hread
  obtain ⟨mid, ht, hclosing⟩ := depthAfter?_append_eq_some_iff.mp hn
  have hcount := count_of_depthAfter? ht
  obtain ⟨hafter, hbalance⟩ := h
  obtain rfl : mid = 0 := by omega
  rw [hafter] at hclosing
  cases hclosing

/-! ### The search -/

/-- One step of the search: it goes on behind a character that is counted, and ends at one that is
not. -/
lemma closing?_cons (seen : Text) :
    closing? q depth seen (c :: t) = match q.depth? depth c with
      | some depth' => closing? (q.step c) depth' (c :: seen) t
      | none => some (seen.reverse, t) := by
  conv_lhs => unfold closing?
  unfold depth?
  split_ifs with hcov ho hc hd
  · rfl
  · rfl
  · subst hd
    rfl
  · obtain ⟨shallower, rfl⟩ := Nat.exists_eq_succ_of_ne_zero hd
    rfl
  · rfl

lemma closing?_of_depth? (h : q.depth? depth c = some depth') (seen : Text) :
    closing? q depth seen (c :: t) = closing? (q.step c) depth' (c :: seen) t := by
  rw [closing?_cons, h]

lemma closing?_of_depth?_eq_none (h : q.depth? depth c = none) (seen : Text) :
    closing? q depth seen (c :: t) = some (seen.reverse, t) := by
  rw [closing?_cons, h]

/-- **The search reads on** over a text that can be read, and stands behind it at its depth. -/
lemma closing?_append (seen : Text) (h : q.depthAfter? depth t = some n) (u : Text) :
    closing? q depth seen (t ++ u) = closing? (q.after t) n (t.reverse ++ seen) u := by
  induction t generalizing q depth seen with
  | nil =>
      cases h
      rfl
  | cons c t ih =>
      obtain ⟨mid, hc, ht⟩ := depthAfter?_cons_eq_some_iff.mp h
      rw [List.cons_append, closing?_of_depth? hc]
      calc closing? (q.step c) mid (c :: seen) (t ++ u)
          = closing? ((q.step c).after t) n (t.reverse ++ c :: seen) u := ih (c :: seen) ht
        _ = closing? (q.after (c :: t)) n ((c :: t).reverse ++ seen) u := by
            rw [after_cons, List.reverse_cons, List.append_assoc, List.singleton_append]

/-- The search comes to the `)` right after a text over which all parentheses are closed, and none
too many on the way. -/
lemma closing?_eq_some_iff {seen r inner rest : Text} :
    closing? q depth seen r = some (inner, rest) ↔
      ∃ t, inner = seen.reverse ++ t ∧ r = t ++ ')' :: rest ∧ q.after t = outside ∧
        depthAfter? q depth t = some 0 := by
  constructor
  · intro h
    induction r generalizing q depth seen with
    | nil => simp [closing?] at h
    | cons c cs ih =>
        rw [closing?_cons] at h
        cases hc : q.depth? depth c with
        | none =>
            obtain ⟨hcov, rfl, rfl⟩ := depth?_eq_none_iff.mp hc
            rw [hc] at h
            obtain ⟨rfl, rfl⟩ := Prod.mk.inj (Option.some.inj h)
            exact ⟨[], by simp, rfl, eq_outside_of_not_covers hcov, rfl⟩
        | some mid =>
            rw [hc] at h
            obtain ⟨t, rfl, rfl, hafter, hdepth⟩ := ih h
            exact ⟨c :: t, by simp, rfl, hafter,
              depthAfter?_cons_eq_some_iff.mpr ⟨mid, hc, hdepth⟩⟩
  · rintro ⟨t, rfl, rfl, hafter, hdepth⟩
    rw [closing?_append seen hdepth, hafter, closing?_of_depth?_eq_none rfl,
      List.reverse_append, List.reverse_reverse]

/-- The search for a closing parenthesis fails where the text can be read to its end. -/
lemma closing?_eq_none_iff {seen : Text} :
    q.closing? depth seen t = none ↔ q.depthAfter? depth t ≠ none := by
  induction t generalizing q depth seen with
  | nil => simp [closing?, depthAfter?]
  | cons c t ih =>
      rw [closing?_cons, depthAfter?]
      cases q.depth? depth c with
      | none => simp
      | some mid => exact ih

end Quotation

/-! ### The first closing parenthesis -/

/-- The first `)` of a text that closes a parenthesis right before the text, with what stands
before it and what stands after it. -/
structure FirstClosing (s args rest : Text) : Prop where
  split : s = args ++ ')' :: rest
  closes : Quotation.outside.Closes 0 args
  first : ∀ args' rest', s = args' ++ ')' :: rest' → Quotation.outside.Closes 0 args' →
    args.length ≤ args'.length

/-- No `)` of the text closes a parenthesis right before the text. -/
def Unclosed (s : Text) : Prop :=
  ∀ args rest, s = args ++ ')' :: rest → ¬ Quotation.outside.Closes 0 args

lemma FirstClosing.self {s args rest : Text} (h : FirstClosing s args rest) :
    FirstClosing (args ++ ')' :: rest) args rest :=
  h.split ▸ h

/-- There is at most one first closing parenthesis. -/
lemma FirstClosing.unique {s args rest args' rest' : Text} (h : FirstClosing s args rest)
    (h' : FirstClosing s args' rest') : args = args' ∧ rest = rest' := by
  have hlen : args.length = args'.length :=
    Nat.le_antisymm (h.first args' rest' h'.split h'.closes) (h'.first args rest h.split h.closes)
  obtain ⟨hargs, hrest⟩ := List.append_inj (h.split.symm.trans h'.split) hlen
  exact ⟨hargs, (List.cons.inj hrest).2⟩

lemma firstClosing_of_closingParen?_eq_some {s args rest : Text}
    (h : closingParen? s = some (args, rest)) : FirstClosing s args rest := by
  obtain ⟨t, hargs, hsplit, hafter, hdepth⟩ := Quotation.closing?_eq_some_iff.mp h
  obtain rfl : args = t := hargs
  refine ⟨hsplit, ⟨hafter, (Quotation.count_of_depthAfter? hdepth).symm⟩, ?_⟩
  intro args' rest' hsplit' hcloses
  by_contra hlonger
  -- the other `)` would stand among what was read before this one
  have hthere : args' ++ [')'] <+: s :=
    ⟨rest', by rw [hsplit', List.append_assoc, List.singleton_append]⟩
  have hargs : args <+: s := hsplit ▸ List.prefix_append args _
  obtain ⟨u, hu⟩ : args' ++ [')'] <+: args :=
    List.prefix_of_prefix_length_le hthere hargs (by simp; omega)
  refine Quotation.depthAfter?_ne_none_of_append (u := u) ?_ hcloses.depthAfter?_eq_none
  rw [hu, hdepth]
  exact Option.some_ne_none 0

/-- Where some `)` closes, the search finds one. -/
lemma closingParen?_ne_none {s args rest : Text} (hsplit : s = args ++ ')' :: rest)
    (hcloses : Quotation.outside.Closes 0 args) : closingParen? s ≠ none := by
  intro hnone
  have hread := Quotation.closing?_eq_none_iff.mp hnone
  rw [hsplit, ← List.singleton_append, ← List.append_assoc] at hread
  exact Quotation.depthAfter?_ne_none_of_append hread hcloses.depthAfter?_eq_none

/-- The search finds the first closing parenthesis. -/
lemma closingParen?_eq_some_iff {s args rest : Text} :
    closingParen? s = some (args, rest) ↔ FirstClosing s args rest := by
  refine ⟨firstClosing_of_closingParen?_eq_some, fun h => ?_⟩
  obtain ⟨⟨args', rest'⟩, hsome⟩ :=
    Option.ne_none_iff_exists'.mp (closingParen?_ne_none h.split h.closes)
  obtain ⟨rfl, rfl⟩ := h.unique (firstClosing_of_closingParen?_eq_some hsome)
  exact hsome

/-- The search fails only where no `)` closes. -/
lemma closingParen?_eq_none_iff {s : Text} : closingParen? s = none ↔ Unclosed s := by
  constructor
  · intro h args rest hsplit hcloses
    exact closingParen?_ne_none hsplit hcloses h
  · intro h
    cases hs : closingParen? s with
    | none => rfl
    | some found =>
        have hfirst : FirstClosing s found.1 found.2 := firstClosing_of_closingParen?_eq_some hs
        exact absurd hfirst.closes (h _ _ hfirst.split)

end TemplateGuards
