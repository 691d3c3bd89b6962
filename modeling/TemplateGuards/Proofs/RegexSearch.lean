import Mathlib.Data.List.Induction
import Mathlib.Tactic.Common
import TemplateGuards.Files.Pattern

/-!
The search for a regular expression, said without the positions that it keeps: an expression is
found in a text exactly where some part of the text fits its items one after the other.

* `Regex.Fits`: a text that fits the items of an expression;
* `Regex.ReachedAt`: a position of a text is reached, named by what is left of the text there;
* `Regex.reachedAt_afterOnce`, `Regex.reachedAt_afterRun`: the positions reached after one item;
* `Regex.reachedAt_foldl`: the positions reached after all of them;
* `Regex.isFoundIn_iff`: the search.
-/

namespace TemplateGuards.Regex

/-- Does the text fit the items? -/
inductive Fits : List Item → Text → Prop
  | nil : Fits [] []
  | once {a : Atom} {items : List Item} {c : Char} {t : Text} (hc : a.accepts c = true)
      (h : Fits items t) : Fits (⟨a, false⟩ :: items) (c :: t)
  | run {a : Atom} {items : List Item} {r t : Text} (hr : ∀ c ∈ r, a.accepts c = true)
      (h : Fits items t) : Fits (⟨a, true⟩ :: items) (r ++ t)

/-- Is the position of the text reached at which `rest` is left? -/
def ReachedAt : Text → Reach → Text → Prop
  | [], reach, rest => reach.headD false = true ∧ rest = []
  | c :: t, reach, rest =>
      (reach.headD false = true ∧ rest = c :: t) ∨ ReachedAt t reach.tail rest

variable {a : Atom} {arrives : Bool} {t rest : Text} {reach : Reach}

/-! ### One item -/

/-- Everywhere every end of the text is left at some position. -/
lemma reachedAt_everywhere : ReachedAt t (everywhere t) rest ↔ rest <:+ t := by
  induction t with
  | nil => simp [everywhere, ReachedAt]
  | cons c t ih =>
      rw [List.suffix_cons_iff, ← ih]
      simp [everywhere, ReachedAt]

/-- After an atom a position is reached if the one before a character that it stands for was. -/
lemma reachedAt_afterOnce :
    ReachedAt t (afterOnce a arrives t reach) rest ↔
      (arrives = true ∧ rest = t) ∨ ∃ c, a.accepts c = true ∧ ReachedAt t reach (c :: rest) := by
  induction t generalizing arrives reach with
  | nil => simp [afterOnce, ReachedAt]
  | cons d t ih =>
      simp only [afterOnce, ReachedAt, List.headD_cons, List.tail_cons, ih, Bool.and_eq_true,
        List.cons.injEq]
      refine or_congr_right ⟨?_, ?_⟩
      · rintro (⟨⟨hhere, hd⟩, rfl⟩ | ⟨c, hc, h⟩)
        · exact ⟨d, hd, .inl ⟨hhere, rfl, rfl⟩⟩
        · exact ⟨c, hc, .inr h⟩
      · rintro ⟨c, hc, ⟨hhere, rfl, rfl⟩ | h⟩
        · exact .inl ⟨⟨hhere, hc⟩, rfl⟩
        · exact .inr ⟨c, hc, h⟩

/-- After a repeated atom a position is reached if one before a run of such characters was. -/
lemma reachedAt_afterRun :
    ReachedAt t (afterRun a arrives t reach) rest ↔
      ∃ r, (∀ c ∈ r, a.accepts c = true) ∧
        (ReachedAt t reach (r ++ rest) ∨ arrives = true ∧ r ++ rest = t) := by
  induction t generalizing arrives reach with
  | nil =>
      simp only [afterRun, ReachedAt, List.headD_cons, Bool.or_eq_true, List.append_eq_nil_iff]
      constructor
      · rintro ⟨hhere | harrives, rfl⟩
        · exact ⟨[], by simp, .inl ⟨hhere, rfl, rfl⟩⟩
        · exact ⟨[], by simp, .inr ⟨harrives, rfl, rfl⟩⟩
      · rintro ⟨r, -, ⟨hhere, -, rfl⟩ | ⟨harrives, -, rfl⟩⟩
        · exact ⟨.inl hhere, rfl⟩
        · exact ⟨.inr harrives, rfl⟩
  | cons d t ih =>
      simp only [afterRun, ReachedAt, List.headD_cons, List.tail_cons, ih, Bool.and_eq_true,
        Bool.or_eq_true]
      constructor
      · rintro (⟨hhere | harrives, rfl⟩ | ⟨r, hr, h | ⟨⟨hhere | harrives, hd⟩, rfl⟩⟩)
        · exact ⟨[], by simp, .inl (.inl ⟨hhere, rfl⟩)⟩
        · exact ⟨[], by simp, .inr ⟨harrives, rfl⟩⟩
        · exact ⟨r, hr, .inl (.inr h)⟩
        · exact ⟨d :: r, by simpa using ⟨hd, hr⟩, .inl (.inl ⟨hhere, rfl⟩)⟩
        · exact ⟨d :: r, by simpa using ⟨hd, hr⟩, .inr ⟨harrives, rfl⟩⟩
      · rintro ⟨r, hr, h⟩
        -- a run that starts here is empty, or it goes on behind the first character
        have hstart : (reach.headD false = true ∨ arrives = true) ∧ r ++ rest = d :: t ∨
            ReachedAt t reach.tail (r ++ rest) := by
          rcases h with (⟨hhere, heq⟩ | h) | ⟨harrives, heq⟩
          · exact .inl ⟨.inl hhere, heq⟩
          · exact .inr h
          · exact .inl ⟨.inr harrives, heq⟩
        rcases hstart with ⟨hfirst, heq⟩ | h
        · cases r with
          | nil => exact .inl ⟨hfirst, heq⟩
          | cons e r =>
              obtain ⟨rfl, htail⟩ := List.cons.inj heq
              have hrun := List.forall_mem_cons.mp hr
              exact .inr ⟨r, hrun.2, .inr ⟨⟨hfirst, hrun.1⟩, htail⟩⟩
        · exact .inr ⟨r, hr, .inl h⟩

/-! ### All items -/

/-- **After all items** a position is reached if one before a text that fits them was. -/
lemma reachedAt_foldl (items : List Item) :
    ReachedAt t (items.foldl (advance t) reach) rest ↔
      ∃ u, Fits items u ∧ ReachedAt t reach (u ++ rest) := by
  induction items generalizing reach with
  | nil =>
      constructor
      · exact fun h => ⟨[], .nil, h⟩
      · rintro ⟨u, hu, h⟩
        cases hu
        exact h
  | cons i items ih =>
      obtain ⟨a, repeated⟩ := i
      rw [List.foldl_cons, ih]
      cases repeated with
      | false =>
          have hstep : ∀ u, ReachedAt t (advance t reach ⟨a, false⟩) (u ++ rest) ↔
              ∃ c, a.accepts c = true ∧ ReachedAt t reach (c :: u ++ rest) := fun u =>
            reachedAt_afterOnce.trans (by simp)
          simp only [hstep]
          constructor
          · rintro ⟨u, hu, c, hc, h⟩
            exact ⟨c :: u, .once hc hu, h⟩
          · rintro ⟨u, hu, h⟩
            cases hu with
            | once hc hu => exact ⟨_, hu, _, hc, h⟩
      | true =>
          have hstep : ∀ u, ReachedAt t (advance t reach ⟨a, true⟩) (u ++ rest) ↔
              ∃ r, (∀ c ∈ r, a.accepts c = true) ∧ ReachedAt t reach (r ++ u ++ rest) := fun u =>
            reachedAt_afterRun.trans (by simp)
          simp only [hstep]
          constructor
          · rintro ⟨u, hu, r, hr, h⟩
            exact ⟨r ++ u, .run hr hu, h⟩
          · rintro ⟨u, hu, h⟩
            cases hu with
            | run hr hu => exact ⟨_, hu, _, hr, h⟩

/-! ### The search -/

lemma length_afterOnce : (afterOnce a arrives t reach).length = t.length + 1 := by
  induction t generalizing arrives reach with
  | nil => rfl
  | cons c t ih => rw [afterOnce, List.length_cons, ih, List.length_cons]

lemma length_afterRun : (afterRun a arrives t reach).length = t.length + 1 := by
  induction t generalizing arrives reach with
  | nil => rfl
  | cons c t ih => rw [afterRun, List.length_cons, ih, List.length_cons]

lemma length_reach (r : Regex) (t : Text) : (r.reach t).length = t.length + 1 := by
  unfold Regex.reach
  induction r.items using List.reverseRecOn with
  | nil => simp [everywhere]
  | append_singleton items i ih =>
      rw [List.foldl_append, List.foldl_cons, List.foldl_nil, advance]
      split
      · exact length_afterRun
      · exact length_afterOnce

/-- Some position is reached. -/
lemma any_iff_reachedAt (h : reach.length = t.length + 1) :
    reach.any id = true ↔ ∃ rest, ReachedAt t reach rest := by
  induction t generalizing reach with
  | nil =>
      obtain ⟨here, rfl⟩ := List.length_eq_one_iff.mp h
      simp [ReachedAt]
  | cons c t ih =>
      obtain ⟨here, reach, rfl⟩ := List.exists_cons_of_length_eq_add_one h
      have htail := @ih reach (Nat.succ.inj h)
      simp only [List.any_cons, id_eq, Bool.or_eq_true, htail, ReachedAt, List.headD_cons,
        List.tail_cons, exists_or, exists_and_left, exists_eq, and_true]

/-- The last position is reached. -/
lemma getLastD_iff_reachedAt (h : reach.length = t.length + 1) :
    reach.getLastD false = true ↔ ReachedAt t reach [] := by
  induction t generalizing reach with
  | nil =>
      obtain ⟨here, rfl⟩ := List.length_eq_one_iff.mp h
      simp [ReachedAt]
  | cons c t ih =>
      obtain ⟨here, next, reach, rfl⟩ : ∃ here next reach', reach = here :: next :: reach' := by
        match reach, h with
        | here :: next :: reach', _ => exact ⟨here, next, reach', rfl⟩
      have htail := @ih (next :: reach) (Nat.succ.inj h)
      simpa [ReachedAt] using htail

/-- **The search**: an expression is found in a text exactly if some part of the text, at the very
end where the expression says so, fits its items. -/
theorem isFoundIn_iff {r : Regex} :
    r.isFoundIn t = true ↔
      ∃ x u y, t = x ++ (u ++ y) ∧ Fits r.items u ∧ (r.atEnd = true → y = []) := by
  have hreach : ∀ y, ReachedAt t (r.reach t) y ↔ ∃ u, Fits r.items u ∧ u ++ y <:+ t := fun y =>
    (reachedAt_foldl r.items).trans (by simp only [reachedAt_everywhere])
  rw [isFoundIn]
  split
  · next hend =>
      rw [getLastD_iff_reachedAt (length_reach r t), hreach]
      constructor
      · rintro ⟨u, hu, x, rfl⟩
        exact ⟨x, u, [], rfl, hu, fun _ => rfl⟩
      · rintro ⟨x, u, y, rfl, hu, hy⟩
        exact ⟨u, hu, x, by rw [hy hend]⟩
  · next hend =>
      rw [any_iff_reachedAt (length_reach r t)]
      simp only [hreach]
      constructor
      · rintro ⟨y, u, hu, x, rfl⟩
        exact ⟨x, u, y, rfl, hu, fun h => absurd h hend⟩
      · rintro ⟨x, u, y, rfl, hu, -⟩
        exact ⟨y, u, hu, x, rfl⟩

end TemplateGuards.Regex
