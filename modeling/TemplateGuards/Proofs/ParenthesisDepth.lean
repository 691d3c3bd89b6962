import Mathlib.Tactic.Common
import TemplateGuards.Proofs.Parenthesis
import TemplateGuards.Text.Blank

/-!
Reading a text with the number of open parentheses at hand.  What stands between a parenthesis and
the one that closes it is a text over which the number comes back to where it was, without falling
below; and such a reading can be cut into readings of parts.

* `Leads`: a text that is read from outside literals to outside literals, from a number of open
  parentheses to another; it can be put together (`Leads.append`), put inside more parentheses
  (`Leads.add`) and trimmed (`Leads.trim`);
* `firstClosing_iff_leads`: what a parenthesis closes leads from no open ones to none.
-/

namespace TemplateGuards

/-- Trimming takes white space from the two ends of a text, and nothing else. -/
lemma Text.exists_eq_append_trim_append (t : Text) :
    ∃ u v, allBlank u = true ∧ allBlank v = true ∧ t = u ++ (trim t ++ v) := by
  have hall : ∀ s : Text, allBlank (s.takeWhile isBlank) = true := fun s => List.all_takeWhile
  refine ⟨t.takeWhile isBlank, ((t.dropWhile isBlank).reverse.takeWhile isBlank).reverse, hall t,
    ?_, ?_⟩
  · rw [allBlank, List.all_reverse]
    exact hall (t.dropWhile isBlank).reverse
  · rw [trim, trimEnd, ← List.reverse_append, List.takeWhile_append_dropWhile,
      List.reverse_reverse, List.takeWhile_append_dropWhile]

namespace Quotation

variable {q : Quotation} {depth depth' n : Nat} {c : Char} {t u : Text}

/-- Inside more parentheses a character is counted alike. -/
lemma depth?_add (h : q.depth? depth c = some depth') (n : Nat) :
    q.depth? (depth + n) c = some (depth' + n) := by
  unfold depth? at h ⊢
  split_ifs at h ⊢ <;> simp_all <;> omega

/-- Inside more parentheses a text is read alike. -/
lemma depthAfter?_add (h : depthAfter? q depth t = some depth') (n : Nat) :
    depthAfter? q (depth + n) t = some (depth' + n) := by
  induction t generalizing q depth with
  | nil =>
      cases h
      rfl
  | cons c t ih =>
      obtain ⟨mid, hc, ht⟩ := depthAfter?_cons_eq_some_iff.mp h
      exact depthAfter?_cons_eq_some_iff.mpr ⟨mid + n, depth?_add hc n, ih ht⟩

end Quotation

/-! ### Texts read from outside literals to outside literals -/

open Quotation

/-- Over the text, read from outside literals, a number of open parentheses becomes another, never
falling below zero, and the reader is outside literals again. -/
def Leads (depth : Nat) (t : Text) (depth' : Nat) : Prop :=
  outside.after t = outside ∧ outside.depthAfter? depth t = some depth'

instance (depth : Nat) (t : Text) (depth' : Nat) : Decidable (Leads depth t depth') :=
  inferInstanceAs (Decidable (_ ∧ _))

/-- **What a parenthesis closes** leads from no open ones to none. -/
lemma firstClosing_iff_leads {args rest : Text} :
    FirstClosing (args ++ ')' :: rest) args rest ↔ Leads 0 args 0 := by
  rw [← closingParen?_eq_some_iff, closingParen?, closing?_eq_some_iff]
  constructor
  · rintro ⟨t, rfl, -, h⟩
    exact h
  · exact fun h => ⟨args, rfl, rfl, h⟩

namespace Leads

variable {depth depth' depth'' : Nat} {t u v : Text}

lemma nil (depth : Nat) : Leads depth [] depth := ⟨rfl, rfl⟩

lemma append (ht : Leads depth t depth') (hu : Leads depth' u depth'') :
    Leads depth (t ++ u) depth'' := by
  refine ⟨?_, depthAfter?_append_eq_some_iff.mpr ⟨depth', ht.2, ?_⟩⟩
  · rw [after_append, ht.1, hu.1]
  · rw [ht.1]
    exact hu.2

/-- Inside more parentheses the text leads on alike. -/
lemma add (h : Leads depth t depth') (n : Nat) : Leads (depth + n) t (depth' + n) :=
  ⟨h.1, depthAfter?_add h.2 n⟩

/-- A text that leads from none open to none leads from any number to itself. -/
lemma level (h : Leads 0 t 0) (depth : Nat) : Leads depth t depth := by
  simpa using h.add depth

end Leads

/-! ### White space -/

/-- A mark is no white space. -/
lemma isBlank_of_isMark {c : Char} (h : isMark c = true) : Text.isBlank c = false := by
  obtain rfl | rfl : c = '\'' ∨ c = '"' := by simpa [isMark] using h
  · decide
  · decide

lemma depth?_of_isBlank {c : Char} (h : Text.isBlank c = true) (depth : Nat) :
    outside.step c = outside ∧ outside.depth? depth c = some depth := by
  have hmark : isMark c = false := by
    cases hc : isMark c with
    | false => rfl
    | true => simp [isBlank_of_isMark hc] at h
  have hopening : c ≠ '(' := Text.ne_of_isBlank h (by decide)
  have hclosing : c ≠ ')' := Text.ne_of_isBlank h (by decide)
  exact ⟨step_of_not_covers hmark, by simp [depth?, covers, hmark, hopening, hclosing]⟩

/-- White space stays outside literals, and opens and closes nothing. -/
lemma leads_of_allBlank {t : Text} (h : Text.allBlank t = true) (depth : Nat) :
    Leads depth t depth := by
  induction t with
  | nil => exact .nil depth
  | cons c t ih =>
      rw [Text.allBlank, List.all_cons, Bool.and_eq_true] at h
      obtain ⟨hstep, hdepth⟩ := depth?_of_isBlank h.1 depth
      obtain ⟨hafter, hrest⟩ := ih h.2
      refine ⟨by rw [after_cons, hstep, hafter],
        depthAfter?_cons_eq_some_iff.mpr ⟨depth, hdepth, ?_⟩⟩
      rwa [hstep]

/-- A literal that a reader can be in was opened by a mark. -/
def Quotation.IsReal : Quotation → Prop
  | outside => True
  | inside mark => isMark mark = true
  | escaped mark => isMark mark = true

lemma Quotation.IsReal.outside : IsReal .outside := trivial

lemma Quotation.IsReal.step {q : Quotation} (h : q.IsReal) (c : Char) : (q.step c).IsReal := by
  cases q with
  | outside =>
      rw [Quotation.step]
      split_ifs with hc
      · exact hc
      · trivial
  | inside mark =>
      rw [Quotation.step]
      split_ifs
      · exact h
      · trivial
      · exact h
  | escaped mark => exact h

lemma Quotation.IsReal.after {q : Quotation} (h : q.IsReal) (t : Text) : (q.after t).IsReal := by
  induction t generalizing q with
  | nil => exact h
  | cons c t ih => exact ih (h.step c)

/-- No literal ends in white space. -/
lemma eq_outside_of_after_blank {q : Quotation} (hq : q.IsReal) {v : Text}
    (hv : Text.allBlank v = true) (h : q.after v = outside) : q = outside := by
  induction v generalizing q with
  | nil => exact h
  | cons c v ih =>
      rw [Text.allBlank, List.all_cons, Bool.and_eq_true] at hv
      have hnext : q.step c = outside := ih (hq.step c) hv.2 h
      cases q with
      | outside => rfl
      | inside mark =>
          have hmark : c ≠ mark := Text.ne_of_isBlank hv.1 (isBlank_of_isMark hq)
          simp only [Quotation.step, hmark, if_false] at hnext
          split at hnext <;> cases hnext
      | escaped mark => cases hnext

namespace Leads

variable {depth depth' : Nat} {t u v : Text}

lemma of_blank_append (hu : Text.allBlank u = true) (h : Leads depth (u ++ t) depth') :
    Leads depth t depth' := by
  obtain ⟨huafter, hudepth⟩ := leads_of_allBlank hu depth
  obtain ⟨hafter, hdepth⟩ := h
  rw [after_append, huafter] at hafter
  obtain ⟨mid, hmid, ht⟩ := depthAfter?_append_eq_some_iff.mp hdepth
  rw [hudepth] at hmid
  cases hmid
  rw [huafter] at ht
  exact ⟨hafter, ht⟩

lemma of_append_blank (hv : Text.allBlank v = true) (h : Leads depth (t ++ v) depth') :
    Leads depth t depth' := by
  obtain ⟨hafter, hdepth⟩ := h
  rw [after_append] at hafter
  have hout : outside.after t = outside :=
    eq_outside_of_after_blank (IsReal.outside.after t) hv hafter
  obtain ⟨mid, hmid, hrest⟩ := depthAfter?_append_eq_some_iff.mp hdepth
  rw [hout, (leads_of_allBlank hv mid).2] at hrest
  cases hrest
  exact ⟨hout, hmid⟩

/-- **White space at the ends does not matter.** -/
lemma trim (h : Leads depth t depth') : Leads depth (Text.trim t) depth' := by
  obtain ⟨u, v, hu, hv, ht⟩ := Text.exists_eq_append_trim_append t
  rw [ht] at h
  exact (h.of_blank_append hu).of_append_blank hv

end Leads

end TemplateGuards
