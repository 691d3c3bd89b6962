import Mathlib.Tactic.Common
import TemplateGuards.Proofs.Location
import TemplateGuards.Text.LineTable

/-!
The position of a byte offset, by counting and by a table of lines.  Counting the line feeds before
the offset and the characters since the last of them gives the position that reading finds, and
halving the table gives it again.

* `LineTable.Window`: what the halving keeps; `LineTable.holds_search`: what it finds;
* `LineTable.OnLine`: the line of an offset, which the table gives (`LineTable.line?_eq_some_iff`);
* `LineTable.exists_starts_eq`: the lines that start in a text;
* `positionAt?_eq_some_iff`, `LineTable.position?_eq`: reading, and looking up;
* `lt_iff_before`: positions are in the order of their offsets;
* `positionAt?_counts`: **the positions of a text**.
-/

namespace TemplateGuards

namespace LineTable

/-! ### Halving a table -/

section Halving

variable {starts : Array Nat} {offset low high : Nat}

/-- What is known when the offset is sought between two indices: the entries below are smaller, and
those from the upper index on are larger. -/
structure Window (starts : Array Nat) (offset low high : Nat) : Prop where
  low_le_high : low ≤ high
  high_le_size : high ≤ starts.size
  below : ∀ i start, starts[i]? = some start → i < low → start < offset
  above : ∀ i start, starts[i]? = some start → high ≤ i → offset < start

/-- What a finding says: the offset is an entry, or the entries on the two sides of the gap are
smaller and larger. -/
inductive Finding.Holds (starts : Array Nat) (offset : Nat) : Finding → Prop
  | entry {index : Nat} (h : starts[index]? = some offset) : Holds starts offset (.entry index)
  | gap {index : Nat} (h : Window starts offset index index) : Holds starts offset (.gap index)

/-- At the beginning nothing is known. -/
lemma Window.all (starts : Array Nat) (offset : Nat) : Window starts offset 0 starts.size where
  low_le_high := Nat.zero_le _
  high_le_size := Nat.le_refl _
  below _ _ _ hi := absurd hi (Nat.not_lt_zero _)
  above i start hi hsize := by
    rw [Array.getElem?_eq_none hsize] at hi
    cases hi

lemma lt_of_index_lt (hinc : starts.toList.Pairwise (· < ·)) {i j a b : Nat}
    (hi : starts[i]? = some a) (hj : starts[j]? = some b) (hij : i < j) : a < b := by
  obtain ⟨hisize, rfl⟩ := Array.getElem?_eq_some_iff.mp hi
  obtain ⟨hjsize, rfl⟩ := Array.getElem?_eq_some_iff.mp hj
  exact List.pairwise_iff_getElem.mp hinc i j hisize hjsize hij

namespace Window

variable {middle start : Nat}

/-- Behind a smaller entry the search goes on above it. -/
lemma upper (h : Window starts offset low high) (hinc : starts.toList.Pairwise (· < ·))
    (hmiddle : starts[middle]? = some start) (hhigh : middle < high) (hlt : start < offset) :
    Window starts offset (middle + 1) high where
  low_le_high := hhigh
  high_le_size := h.high_le_size
  above := h.above
  below i a hi hle := by
    rcases Nat.lt_or_eq_of_le (Nat.le_of_lt_succ hle) with hlower | rfl
    · exact (lt_of_index_lt hinc hi hmiddle hlower).trans hlt
    · rw [hmiddle] at hi
      cases hi
      exact hlt

/-- Before a larger entry the search goes on below it. -/
lemma lower (h : Window starts offset low high) (hinc : starts.toList.Pairwise (· < ·))
    (hmiddle : starts[middle]? = some start) (hlow : low ≤ middle) (hhigh : middle < high)
    (hlt : offset < start) : Window starts offset low middle where
  low_le_high := hlow
  high_le_size := hhigh.le.trans h.high_le_size
  below := h.below
  above i a hi hle := by
    rcases Nat.lt_or_eq_of_le hle with hupper | rfl
    · exact hlt.trans (lt_of_index_lt hinc hmiddle hi hupper)
    · rw [hmiddle] at hi
      cases hi
      exact hlt

end Window

/-- **What the halving finds** is so, from every window on. -/
lemma holds_search (hinc : starts.toList.Pairwise (· < ·)) (hsize : high ≤ starts.size)
    (h : Window starts offset low high) :
    (search starts offset low high hsize).Holds starts offset := by
  fun_induction search starts offset low high hsize with
  | case1 low high hsize hlt middle hmiddle heq =>
      exact .entry (Array.getElem?_eq_some_iff.mpr ⟨hmiddle, heq⟩)
  | case2 low high hsize hlt middle hmiddle hne hsmaller ih =>
      have hhigh : middle < high := by omega
      exact ih (h.upper hinc (Array.getElem?_eq_getElem hmiddle) hhigh hsmaller)
  | case3 low high hsize hlt middle hmiddle hne hlarger ih =>
      have hlow : low ≤ middle := Nat.le_add_right low _
      have hhigh : middle < high := by omega
      have hoffset : offset < starts[middle] := by omega
      exact ih (h.lower hinc (Array.getElem?_eq_getElem hmiddle) hlow hhigh hoffset)
  | case4 low high hsize hge =>
      obtain rfl : low = high := Nat.le_antisymm h.low_le_high (Nat.le_of_not_lt hge)
      exact .gap h

end Halving

/-! ### The line of an offset -/

variable {offset : Nat}

lemma holds_find (t : LineTable) (offset : Nat) : (t.find offset).Holds t.starts offset :=
  holds_search t.increasing _ (.all t.starts offset)

/-- No offset lies before the first line. -/
lemma find_ne_gap_zero (t : LineTable) (offset : Nat) : t.find offset ≠ .gap 0 := by
  intro hgap
  have hholds := t.holds_find offset
  rw [hgap] at hholds
  cases hholds with
  | gap hwindow => exact absurd (hwindow.above 0 0 t.first (Nat.le_refl 0)) (Nat.not_lt_zero offset)

/-- Does the offset lie on the line with that index?  The line starts no later, and the lines behind
it start later. -/
structure OnLine (t : LineTable) (offset line : Nat) : Prop where
  start : ∃ start, t.starts[line]? = some start ∧ start ≤ offset
  behind : ∀ i start, t.starts[i]? = some start → line < i → offset < start

lemma OnLine.le {t : LineTable} {line line' : Nat} (h : t.OnLine offset line)
    (h' : t.OnLine offset line') : line' ≤ line := by
  by_contra hlt
  obtain ⟨start, hstart, hle⟩ := h'.start
  exact absurd (h.behind line' start hstart (Nat.lt_of_not_le hlt)) (Nat.not_lt.mpr hle)

/-- Every offset is found to lie on a line. -/
lemma exists_line (t : LineTable) (offset : Nat) :
    ∃ line, t.line? offset = some line ∧ t.OnLine offset line := by
  have hholds := t.holds_find offset
  have hzero := t.find_ne_gap_zero offset
  rw [line?]
  cases hfind : t.find offset with
  | entry line =>
      rw [hfind] at hholds
      obtain ⟨hline⟩ := hholds
      exact ⟨line, rfl, ⟨offset, hline, Nat.le_refl _⟩,
        fun _ _ hi => lt_of_index_lt t.increasing hline hi⟩
  | gap index =>
      rw [hfind] at hholds hzero
      obtain ⟨-⟩ | ⟨hwindow⟩ := hholds
      obtain ⟨line, rfl⟩ : ∃ line, index = line + 1 :=
        Nat.exists_eq_succ_of_ne_zero fun h => hzero (h ▸ rfl)
      have hsize : line < t.starts.size := hwindow.high_le_size
      have hstart : t.starts[line]? = some t.starts[line] := Array.getElem?_eq_getElem hsize
      exact ⟨line, rfl, ⟨_, hstart, (hwindow.below line _ hstart (Nat.lt_succ_self line)).le⟩,
        hwindow.above⟩

/-- **The line of an offset** is the last one that starts no later. -/
lemma line?_eq_some_iff {t : LineTable} {line : Nat} :
    t.line? offset = some line ↔ t.OnLine offset line := by
  obtain ⟨found, hfound, hon⟩ := t.exists_line offset
  rw [hfound, Option.some.injEq]
  constructor
  · rintro rfl
    exact hon
  · intro h
    exact Nat.le_antisymm (h.le hon) (hon.le h)

/-! ### The lines of a text -/

lemma laterStarts_append (first : Nat) (s t : Text) :
    laterStarts first (s ++ t) =
      laterStarts first s ++ laterStarts (first + Text.byteSize s) t := by
  have hnewline : '\n'.utf8Size = 1 := rfl
  fun_induction laterStarts first s with
  | case1 => rfl
  | case2 first cs ih =>
      rw [List.cons_append, laterStarts, if_pos rfl, ih, Text.byteSize_cons, hnewline,
        Nat.add_assoc, List.cons_append]
  | case3 first c cs hc ih =>
      rw [List.cons_append, laterStarts, if_neg hc, ih, Text.byteSize_cons, Nat.add_assoc]

/-- **The lines that start in a text**, the first one with it: one for each line feed besides, and
the last of them behind the last line feed. -/
lemma exists_starts_eq (t : Text) : ∃ earlier,
    0 :: laterStarts 0 t = earlier ++ [Text.byteSize (t.rdropWhile (· ≠ '\n'))] ∧
      earlier.length = t.count '\n' := by
  induction t using List.reverseRecOn with
  | nil => exact ⟨[], rfl, rfl⟩
  | append_singleton t c ih =>
      obtain ⟨earlier, hstarts, hlength⟩ := ih
      rw [laterStarts_append, ← List.cons_append, hstarts]
      by_cases hc : c = '\n'
      · subst hc
        refine ⟨earlier ++ [Text.byteSize (t.rdropWhile (· ≠ '\n'))], ?_, ?_⟩
        · rw [List.rdropWhile_concat_neg _ _ _ (by simp)]
          simp [laterStarts]
          rfl
        · simp [hlength]
      · refine ⟨earlier, ?_, ?_⟩
        · rw [List.rdropWhile_concat_pos _ _ _ (by simpa using hc)]
          simp [laterStarts, hc]
        · simp [hlength, hc]

/-! ### Positions -/

/-- The end of the first part of a text lies on the line behind the line feeds of that part, which
starts behind the last of them. -/
lemma onLine_byteSize (before after : Text) :
    (ofText (before ++ after)).OnLine (Text.byteSize before) (before.count '\n') ∧
      (ofText (before ++ after)).starts[before.count '\n']? =
        some (Text.byteSize (before.rdropWhile (· ≠ '\n'))) := by
  obtain ⟨earlier, hbefore, hlength⟩ := exists_starts_eq before
  set lines := before.rdropWhile (· ≠ '\n')
  have hstarts : (ofText (before ++ after)).starts.toList =
      earlier ++ Text.byteSize lines :: laterStarts (Text.byteSize before) after := by
    calc (ofText (before ++ after)).starts.toList
        = (0 :: laterStarts 0 before) ++ laterStarts (0 + Text.byteSize before) after := by
          rw [List.cons_append, ← laterStarts_append]
          rfl
      _ = earlier ++ Text.byteSize lines :: laterStarts (Text.byteSize before) after := by
          rw [hbefore, List.append_assoc, List.singleton_append, Nat.zero_add]
  have hat : ∀ i : Nat, (ofText (before ++ after)).starts[i]? =
      (earlier ++ Text.byteSize lines :: laterStarts (Text.byteSize before) after)[i]? := by
    intro i
    rw [← hstarts, Array.getElem?_toList]
  have hstart : (ofText (before ++ after)).starts[before.count '\n']? =
      some (Text.byteSize lines) := by
    rw [hat, ← hlength, List.getElem?_append_right (Nat.le_refl _), Nat.sub_self]
    rfl
  have hle : Text.byteSize lines ≤ Text.byteSize before := by
    obtain ⟨onLine, hsplit⟩ := List.rdropWhile_prefix (· ≠ '\n') before
    rw [← hsplit, Text.byteSize_append]
    exact Nat.le_add_right _ _
  refine ⟨⟨⟨_, hstart, hle⟩, fun i start hi hlt => ?_⟩, hstart⟩
  -- the entries behind that line are those of the second part of the text
  obtain ⟨k, rfl⟩ := Nat.exists_eq_add_of_lt hlt
  rw [hat, ← hlength, Nat.add_assoc, List.getElem?_append_right (Nat.le_add_right _ _),
    Nat.add_sub_cancel_left, List.getElem?_cons_succ] at hi
  exact lt_of_mem_laterStarts (List.mem_of_getElem? hi)

/-- At the end of its first part the table of a text gives the position that counting gives. -/
lemma position?_byteSize (before after : Text) :
    (ofText (before ++ after)).position? (Text.byteSize before) = some (.after before) := by
  obtain ⟨honLine, hstart⟩ := onLine_byteSize before after
  have hbetween : Text.between? (Text.byteSize (before.rdropWhile (· ≠ '\n')))
      (Text.byteSize before) (before ++ after) = some (before.rtakeWhile (· ≠ '\n')) := by
    have h := Text.between?_append (before.rdropWhile (· ≠ '\n'))
      (before.rtakeWhile (· ≠ '\n')) after
    rwa [List.rdropWhile_append_rtakeWhile] at h
  simp only [position?, line?_eq_some_iff.mpr honLine, hstart, Option.bind_eq_bind,
    Option.bind_some]
  rw [show (ofText (before ++ after)).source = before ++ after from rfl, hbetween]
  rfl

/-- Inside a character and beyond the end the table gives no position. -/
lemma position?_of_not_isBoundary {source : Text} (h : ¬ source.IsBoundary offset) :
    (ofText source).position? offset = none := by
  have hbetween : ∀ start, (ofText source).source.between? start offset = none :=
    Text.between?_of_not_isBoundary h
  simp [position?, hbetween]

end LineTable

/-! ### Reading and looking up -/

/-- A position is read at the ends of the first parts of a text, and nowhere else. -/
lemma exists_of_positionFrom?_eq_some {place : Place} {offset : Nat} {t : Text} {p : Position}
    (h : positionFrom? place offset t = some p) :
    ∃ before, before <+: t ∧ place.offset + Text.byteSize before = offset := by
  fun_induction positionFrom? place offset t with
  | case1 place heq => exact ⟨[], List.nil_prefix, heq⟩
  | case2 => cases h
  | case3 place c t heq => exact ⟨[], List.nil_prefix, heq⟩
  | case4 place c t _ ih =>
      obtain ⟨before, hbefore, hoffset⟩ := ih h
      refine ⟨c :: before, List.cons_prefix_cons.mpr ⟨rfl, hbefore⟩, ?_⟩
      rw [Text.byteSize_cons, ← hoffset, Place.next, Nat.add_assoc]

/-- **Reading gives the position that counting gives**, at every boundary of the text. -/
lemma positionAt?_eq_some_iff {source : Text} {offset : Nat} {p : Position} :
    positionAt? source offset = some p ↔
      ∃ before, before <+: source ∧ Text.byteSize before = offset ∧ .after before = p := by
  have hread : ∀ before, before <+: source →
      positionAt? source (Text.byteSize before) = some (.after before) := by
    intro before hprefix
    have h := positionAt?_byteSize_take source before.length
    rwa [Place.position_ofIndex, ← List.prefix_iff_eq_take.mp hprefix] at h
  constructor
  · intro h
    obtain ⟨before, hprefix, hoffset⟩ := exists_of_positionFrom?_eq_some h
    have hbytes : Text.byteSize before = offset := by
      rwa [show Place.start.offset = 0 from rfl, Nat.zero_add] at hoffset
    rw [← hbytes, hread before hprefix, Option.some.injEq] at h
    exact ⟨before, hprefix, hbytes, h⟩
  · rintro ⟨before, hprefix, rfl, rfl⟩
    exact hread before hprefix

/-- There is a position at the boundaries of the text only. -/
lemma positionAt?_ne_none_iff {source : Text} {offset : Nat} :
    positionAt? source offset ≠ none ↔ source.IsBoundary offset := by
  rw [Option.ne_none_iff_exists', Text.IsBoundary]
  simp only [positionAt?_eq_some_iff]
  constructor
  · rintro ⟨p, before, hprefix, hbytes, -⟩
    exact ⟨before, hprefix, hbytes⟩
  · rintro ⟨before, hprefix, hbytes⟩
    exact ⟨_, before, hprefix, hbytes, rfl⟩

/-- **Looking up gives what reading gives**, at every offset. -/
lemma LineTable.position?_eq (source : Text) (offset : Nat) :
    (ofText source).position? offset = positionAt? source offset := by
  by_cases hboundary : source.IsBoundary offset
  · obtain ⟨before, ⟨after, rfl⟩, rfl⟩ := hboundary
    rw [position?_byteSize]
    exact (positionAt?_eq_some_iff.mpr ⟨before, List.prefix_append before after, rfl, rfl⟩).symm
  · have hread : positionAt? source offset = none :=
      not_not.mp (mt positionAt?_ne_none_iff.mp hboundary)
    rw [position?_of_not_isBoundary hboundary, hread]

/-! ### The order of positions -/

namespace Position

lemma Before.asymm {p q : Position} (h : p.Before q) : ¬ q.Before p := by
  unfold Before at *
  omega

lemma Before.ne {p q : Position} (h : p.Before q) : p ≠ q := by
  rintro rfl
  exact h.asymm h

/-- Of two first parts of a text the position behind the longer one is further on. -/
lemma after_before_of_byteSize_lt {source s t : Text} (hs : s <+: source) (ht : t <+: source)
    (hlt : Text.byteSize s < Text.byteSize t) : (after s).Before (after t) := by
  rcases List.prefix_or_prefix_of_prefix hs ht with ⟨u, rfl⟩ | ⟨u, rfl⟩
  · have hu : u ≠ [] := by
      rintro rfl
      simp at hlt
    exact after_before_append s hu
  · rw [Text.byteSize_append] at hlt
    omega

end Position

section Order

variable {source : Text} {first last : Nat} {p q : Position}

lemma Position.before_of_lt (hp : positionAt? source first = some p)
    (hq : positionAt? source last = some q) (hlt : first < last) : p.Before q := by
  obtain ⟨s, hs, rfl, rfl⟩ := positionAt?_eq_some_iff.mp hp
  obtain ⟨t, ht, rfl, rfl⟩ := positionAt?_eq_some_iff.mp hq
  exact after_before_of_byteSize_lt hs ht hlt

/-- **Positions are in the order of their offsets.** -/
lemma lt_iff_before (hp : positionAt? source first = some p)
    (hq : positionAt? source last = some q) : first < last ↔ p.Before q := by
  refine ⟨Position.before_of_lt hp hq, fun hbefore => ?_⟩
  rcases Nat.lt_trichotomy first last with hlt | rfl | hgt
  · exact hlt
  · rw [hp] at hq
    exact absurd (Option.some.inj hq) hbefore.ne
  · exact absurd (Position.before_of_lt hq hp hgt) hbefore.asymm

/-- No two offsets have one position. -/
lemma eq_iff_position_eq (hp : positionAt? source first = some p)
    (hq : positionAt? source last = some q) : first = last ↔ p = q := by
  constructor
  · rintro rfl
    exact Option.some.inj (hp.symm.trans hq)
  · rintro rfl
    rcases Nat.lt_trichotomy first last with hlt | heq | hgt
    · exact absurd rfl (Position.before_of_lt hp hq hlt).ne
    · exact heq
    · exact absurd rfl (Position.before_of_lt hq hp hgt).ne

end Order

/-- **The positions of a text.**  At each of its boundaries the line is one more than the line feeds
before, and the column one more than the characters since the last of them; elsewhere there is no
position.  Offsets and positions are in the same order, and no two offsets share a position.  The
table of the lines gives the same positions, and finds no offset before its first line. -/
theorem positionAt?_counts (source : Text) :
    (∀ before after, source = before ++ after →
      positionAt? source (Text.byteSize before) =
        some ⟨1 + before.count '\n', 1 + (before.rtakeWhile (· ≠ '\n')).length⟩) ∧
    (∀ offset, positionAt? source offset ≠ none ↔ source.IsBoundary offset) ∧
    (∀ first last p q, positionAt? source first = some p → positionAt? source last = some q →
      (first < last ↔ p.Before q) ∧ (first = last ↔ p = q)) ∧
    ∀ offset, (LineTable.ofText source).position? offset = positionAt? source offset ∧
      (LineTable.ofText source).find offset ≠ .gap 0 := by
  refine ⟨?_, fun offset => positionAt?_ne_none_iff, fun first last p q hp hq => ?_,
    fun offset => ?_⟩
  · rintro before after rfl
    rw [Nat.add_comm 1, Nat.add_comm 1]
    exact positionAt?_eq_some_iff.mpr ⟨before, List.prefix_append before after, rfl, rfl⟩
  · exact ⟨lt_iff_before hp hq, eq_iff_position_eq hp hq⟩
  · exact ⟨LineTable.position?_eq source offset, LineTable.find_ne_gap_zero _ offset⟩

/-- Two lines whose letters take two bytes each: the offset behind the second letter, and the one
inside of it. -/
theorem positionAt?_counts_multibyte :
    let source : Text := "é\nç@"
    source = "é\nç" ++ ['@'] ∧
    positionAt? source 5 = some ⟨2, 2⟩ ∧ (LineTable.ofText source).position? 5 = some ⟨2, 2⟩ ∧
    positionAt? source 3 = some ⟨2, 1⟩ ∧ Position.Before ⟨2, 1⟩ ⟨2, 2⟩ ∧
    ¬ source.IsBoundary 4 ∧ (LineTable.ofText source).position? 4 = none := by
  intro source
  obtain ⟨hcounts, hboundary, horder, htable⟩ := positionAt?_counts source
  have hfive : positionAt? source 5 = some ⟨2, 2⟩ := hcounts "é\nç" ['@'] rfl
  have hthree : positionAt? source 3 = some ⟨2, 1⟩ := hcounts "é\n" ['ç', '@'] rfl
  have hfour : positionAt? source 4 = none := by decide
  refine ⟨rfl, hfive, (htable 5).1.trans hfive, hthree, ?_, ?_, (htable 4).1.trans hfour⟩
  · exact (horder 3 5 _ _ hthree hfive).1.mp (by decide)
  · exact fun h => (hboundary 4).mpr h hfour

end TemplateGuards
