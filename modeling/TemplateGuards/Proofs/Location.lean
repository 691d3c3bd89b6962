import Mathlib.Data.List.DropRight
import Mathlib.Tactic.Common
import TemplateGuards.Text.Position

/-!
The places of a text by the index of their character.  A place knows its byte offset and its
position, and both are those of the characters before it.

* `Place.ofIndex`: the place of the character with an index;
* `Place.ofIndex_add`: it moves on over the characters that follow;
* `positionAt?_byteSize_take`: the position of a byte offset is found there;
* `Position.after`: the position behind a text by counting, which is that of the place
  (`Place.position_ofIndex`);
* `Position.Before`: the order of positions, which is that of the indices
  (`Position.after_take_before`).
-/

namespace TemplateGuards

/-! ### Characters of a text -/

lemma take_add_of_drop_eq {source t s : Text} {i : Nat} (h : source.drop i = t ++ s) :
    source.take (i + t.length) = source.take i ++ t := by
  rw [List.take_add, h, List.take_left]

lemma drop_add_of_drop_eq {source t s : Text} {i : Nat} (h : source.drop i = t ++ s) :
    source.drop (i + t.length) = s := by
  rw [← List.drop_drop, h, List.drop_left]

/-! ### Places -/

namespace Place

/-- The place of the character with that index. -/
def ofIndex (source : Text) (i : Nat) : Place := start.advance (source.take i)

@[simp] lemma offset_ofIndex (source : Text) (i : Nat) :
    (ofIndex source i).offset = Text.byteSize (source.take i) := by
  rw [ofIndex, offset_advance]
  exact Nat.zero_add _

/-- Over the characters that follow the place moves on. -/
lemma ofIndex_add {source t s : Text} {i : Nat} (h : source.drop i = t ++ s) :
    ofIndex source (i + t.length) = (ofIndex source i).advance t := by
  rw [ofIndex, take_add_of_drop_eq h, advance_append, ofIndex]

lemma ofIndex_succ {source s : Text} {c : Char} {i : Nat} (h : source.drop i = c :: s) :
    ofIndex source (i + 1) = (ofIndex source i).next c :=
  ofIndex_add (t := [c]) h

end Place

/-! ### Positions -/

lemma positionFrom?_self (place : Place) (s : Text) :
    positionFrom? place place.offset s = some place.position := by
  cases s <;> simp [positionFrom?]

lemma positionFrom?_append (place : Place) (t s : Text) :
    positionFrom? place (place.offset + Text.byteSize t) (t ++ s) =
      some (place.advance t).position := by
  induction t generalizing place with
  | nil => exact positionFrom?_self place s
  | cons c t ih =>
      have hpos := c.utf8Size_pos
      have hne : place.offset ≠ place.offset + Text.byteSize (c :: t) := by
        rw [Text.byteSize_cons]
        omega
      have hoff : place.offset + Text.byteSize (c :: t) =
          (place.next c).offset + Text.byteSize t := by
        rw [Text.byteSize_cons, Place.next, Nat.add_assoc]
      rw [List.cons_append, positionFrom?, if_neg hne, hoff, ih]
      rfl

/-- The position of the byte offset of a character is that of its place. -/
lemma positionAt?_byteSize_take (source : Text) (i : Nat) :
    positionAt? source (Text.byteSize (source.take i)) =
      some (Place.ofIndex source i).position := by
  have h := positionFrom?_append Place.start (source.take i) (source.drop i)
  rw [List.take_append_drop, show Place.start.offset = 0 from rfl, Nat.zero_add] at h
  exact h

/-! ### Counting -/

namespace Position

/-- The position behind a text, counted in it: the line after its line feeds, and the column after
the characters that follow the last of them. -/
def after (before : Text) : Position :=
  ⟨before.count '\n' + 1, (before.rtakeWhile (· ≠ '\n')).length + 1⟩

lemma after_concat (t : Text) (c : Char) : after (t ++ [c]) = (after t).next c := by
  by_cases hc : c = '\n'
  · simp [after, next, hc]
  · simp [after, next, hc]

/-- One position comes before another: on a line further up, or further left on the line. -/
def Before (p q : Position) : Prop := p.line < q.line ∨ p.line = q.line ∧ p.column < q.column

instance (p q : Position) : Decidable (p.Before q) :=
  inferInstanceAs (Decidable (_ ∨ _))

lemma Before.trans {p q r : Position} (h : p.Before q) (h' : q.Before r) : p.Before r := by
  unfold Before at *
  omega

/-- A character moves the position on. -/
lemma before_next (p : Position) (c : Char) : p.Before (p.next c) := by
  unfold Before next
  split
  · exact .inl (Nat.lt_succ_self p.line)
  · exact .inr ⟨rfl, Nat.lt_succ_self p.column⟩

/-- Some characters move it on. -/
lemma after_before_append (t : Text) {u : Text} (hu : u ≠ []) :
    (after t).Before (after (t ++ u)) := by
  induction u using List.reverseRecOn with
  | nil => exact absurd rfl hu
  | append_singleton u c ih =>
      rw [← List.append_assoc, after_concat]
      cases u with
      | nil =>
          rw [List.append_nil]
          exact before_next _ c
      | cons d u => exact (ih (List.cons_ne_nil d u)).trans (before_next _ c)

/-- **The order of positions is that of the indices.** -/
lemma after_take_before {source : Text} {i j : Nat} (hij : i < j) (hj : j ≤ source.length) :
    (after (source.take i)).Before (after (source.take j)) := by
  have hsplit : source.take i ++ (source.take j).drop i = source.take j := by
    have h := List.take_append_drop i (source.take j)
    rwa [List.take_take, Nat.min_eq_left hij.le] at h
  have hne : (source.take j).drop i ≠ [] := by
    rw [ne_eq, List.drop_eq_nil_iff, List.length_take]
    omega
  rw [← hsplit]
  exact after_before_append _ hne

end Position

/-- The position of a place is found by counting. -/
lemma Place.position_ofIndex (source : Text) (i : Nat) :
    (ofIndex source i).position = .after (source.take i) := by
  rw [ofIndex]
  induction source.take i using List.reverseRecOn with
  | nil => rfl
  | append_singleton t c ih => rw [advance_append, Position.after_concat, ← ih]; rfl

end TemplateGuards
