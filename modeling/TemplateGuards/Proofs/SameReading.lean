import TemplateGuards.Proofs.ParenthesisDepth
import TemplateGuards.Proofs.Sighting

/-!
Two texts that leave a reader at the same quotation and at the same number of open parentheses.  A
region ends in front of the one where it ends in front of the other, for all that its end depends
on is the reading of what follows and the character behind an end tag.

* `SameReading`: the relation, read part after part (`SameReading.append`);
* `SameReading.unclosed`: a parenthesis in front of either text is closed or not;
* `Region.EndsAt.congr`: a region ends in front of either text.
-/

namespace TemplateGuards

open Quotation

lemma Quotation.depthAfter?_append (q : Quotation) (depth : Nat) (t u : Text) :
    q.depthAfter? depth (t ++ u) =
      (q.depthAfter? depth t).bind ((q.after t).depthAfter? · u) := by
  ext n
  simp [depthAfter?_append_eq_some_iff, Option.bind_eq_some_iff]

/-- Behind both texts a reader that starts from the quotation stands at the same quotation and
depth. -/
structure SameReading (q : Quotation) (t t' : Text) : Prop where
  after : q.after t = q.after t'
  depth : ∀ depth, q.depthAfter? depth t = q.depthAfter? depth t'

namespace SameReading

variable {q : Quotation} {t t' t'' u u' : Text}

lemma refl (q : Quotation) (t : Text) : SameReading q t t := ⟨rfl, fun _ => rfl⟩

lemma symm (h : SameReading q t t') : SameReading q t' t :=
  ⟨h.after.symm, fun depth => (h.depth depth).symm⟩

lemma trans (h : SameReading q t t') (h' : SameReading q t' t'') : SameReading q t t'' :=
  ⟨h.after.trans h'.after, fun depth => (h.depth depth).trans (h'.depth depth)⟩

lemma append (ht : SameReading q t t') (hu : SameReading (q.after t') u u') :
    SameReading q (t ++ u) (t' ++ u') := by
  constructor
  · rw [after_append, after_append, ht.after, hu.after]
  · intro depth
    rw [depthAfter?_append, depthAfter?_append, ht.depth, ht.after]
    exact congrArg _ (funext hu.depth)

/-- Where nothing closes a parenthesis in the one text nothing does in the other. -/
lemma unclosed (h : SameReading outside t t') (ht : Unclosed t) : Unclosed t' := by
  rw [← closingParen?_eq_none_iff, closingParen?, closing?_eq_none_iff] at ht ⊢
  rwa [← h.depth]

end SameReading

/-- **A region ends** in front of texts that are read the same, if an end tag does. -/
lemma Region.EndsAt.congr {r : Region} {rest rest' : Text} (hr : r.EndsAt rest)
    (h : SameReading outside rest rest')
    (hadmits : ∀ tag : Tag, tag.admits rest' = tag.admits rest) : r.EndsAt rest' := by
  cases r with
  | opener kind args => exact firstClosing_iff_leads.mpr (firstClosing_iff_leads.mp hr)
  | ender kind => exact (hadmits _).trans hr
  | escapedOpener kind args? =>
      cases args? with
      | none => exact h.unclosed hr
      | some args => exact firstClosing_iff_leads.mpr (firstClosing_iff_leads.mp hr)
  | escapedEnder kind => exact (hadmits _).trans hr

end TemplateGuards
