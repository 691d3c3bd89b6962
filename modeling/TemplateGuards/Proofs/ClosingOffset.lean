import Mathlib.Order.Bounds.Basic
import TemplateGuards.Proofs.Consumption
import TemplateGuards.Proofs.ParenthesisDepth
import TemplateGuards.Text.Offset

/-!
The closing parenthesis of an opener by its byte offset.  It is the least offset of a `)` outside
literals before which as many parentheses were closed as opened; the search for it keeps the
difference as its depth, and text behind what it has read does not change it.

* `closingOffset?`: the offset; `ClosesAt`: a `)` there closes the parenthesis before the start;
* `closingOffset?_eq_some_iff`, `closingOffset?_eq_none_iff`: it is the least one;
* `SearchReaches`: how far the search is, and with what depth (`exists_searchReaches`);
* `closingOffset?_append_of_some`, `closingOffset?_append_of_none`: with more text behind;
* `Outline.closingOffset?_of_mem`: openers of an outline end behind their closing parentheses;
* `closingOffset?_least`: **the search for a closing parenthesis**.
-/

namespace TemplateGuards

open Quotation

/-- The byte offset of the `)` that balances an opening parenthesis right before the offset
`start`. -/
def closingOffset? (source : Text) (start : Nat) : Option Nat :=
  match source.cutAt? start with
  | some (_, s) => (closingParen? s).map fun found => start + Text.byteSize found.1
  | none => none

/-- Is there a `)` at the offset, outside the literals from `start` on, and are as many parentheses
closed as opened in between? -/
def ClosesAt (source : Text) (start offset : Nat) : Prop :=
  ∃ before args rest, source = before ++ (args ++ ')' :: rest) ∧ Text.byteSize before = start ∧
    start + Text.byteSize args = offset ∧ outside.after args = outside ∧
    (outside.bare args).count '(' = (outside.bare args).count ')'

/-! ### The least offset -/

section Least

variable {before s args rest : Text} {c : Nat}

lemma closingOffset?_append (before s : Text) :
    closingOffset? (before ++ s) (Text.byteSize before) =
      (closingParen? s).map fun found => Text.byteSize before + Text.byteSize found.1 := by
  rw [closingOffset?, Text.cutAt?_append]

/-- An offset behind the first part of a text lies in the second part. -/
lemma closesAt_append_iff :
    ClosesAt (before ++ s) (Text.byteSize before) c ↔
      ∃ args rest, s = args ++ ')' :: rest ∧ Text.byteSize before + Text.byteSize args = c ∧
        outside.Closes 0 args := by
  constructor
  · rintro ⟨before', args, rest, hsplit, hbytes, hc, hafter, hcount⟩
    obtain ⟨-, rfl⟩ := Text.append_inj_of_byteSize hsplit hbytes.symm
    exact ⟨args, rest, rfl, hc, hafter, hcount.symm⟩
  · rintro ⟨args, rest, rfl, hc, hafter, hcount⟩
    exact ⟨before, args, rest, rfl, rfl, hc, hafter, hcount.symm⟩

/-- Of two first parts of a text the one with more characters has more bytes. -/
lemma byteSize_le_of_length_le {args' rest' : Text} (h : args ++ rest = args' ++ rest')
    (hle : args.length ≤ args'.length) : Text.byteSize args ≤ Text.byteSize args' := by
  have hprefix : args <+: args' := List.prefix_of_prefix_length_le (List.prefix_append args rest)
    (h ▸ List.prefix_append args' rest') hle
  obtain ⟨u, rfl⟩ := hprefix
  rw [Text.byteSize_append]
  exact Nat.le_add_right _ _

/-- Of two first parts of a text the one with more bytes starts with the other. -/
lemma prefix_of_byteSize_le {whole s t : Text} (hs : s <+: whole) (ht : t <+: whole)
    (hle : Text.byteSize s ≤ Text.byteSize t) : s <+: t := by
  rcases List.prefix_or_prefix_of_prefix hs ht with hst | ⟨u, rfl⟩
  · exact hst
  · cases u with
    | nil => simp
    | cons c u =>
        have hpos := c.utf8Size_pos
        rw [Text.byteSize_append, Text.byteSize_cons] at hle
        omega

/-- The first closing parenthesis has the least offset. -/
lemma FirstClosing.isLeast (h : FirstClosing s args rest) (before : Text) :
    IsLeast {offset | ClosesAt (before ++ s) (Text.byteSize before) offset}
      (Text.byteSize before + Text.byteSize args) := by
  constructor
  · exact closesAt_append_iff.mpr ⟨args, rest, h.split, rfl, h.closes⟩
  · intro offset hoffset
    obtain ⟨args', rest', hsplit, rfl, hcloses⟩ := closesAt_append_iff.mp hoffset
    have hle := h.first args' rest' hsplit hcloses
    exact Nat.add_le_add_left (byteSize_le_of_length_le (h.split.symm.trans hsplit) hle) _

/-- No offset is found where no `)` closes. -/
lemma closingOffset?_eq_none_iff :
    closingOffset? (before ++ s) (Text.byteSize before) = none ↔
      ∀ offset, ¬ ClosesAt (before ++ s) (Text.byteSize before) offset := by
  rw [closingOffset?_append, Option.map_eq_none_iff, closingParen?_eq_none_iff]
  constructor
  · intro hunclosed offset hoffset
    obtain ⟨args, rest, hsplit, -, hcloses⟩ := closesAt_append_iff.mp hoffset
    exact hunclosed args rest hsplit hcloses
  · intro hnone args rest hsplit hcloses
    exact hnone _ (closesAt_append_iff.mpr ⟨args, rest, hsplit, rfl, hcloses⟩)

/-- **The offset that is found** is the least one at which a `)` closes. -/
lemma closingOffset?_eq_some_iff :
    closingOffset? (before ++ s) (Text.byteSize before) = some c ↔
      IsLeast {offset | ClosesAt (before ++ s) (Text.byteSize before) offset} c := by
  have hleast : ∀ c, closingOffset? (before ++ s) (Text.byteSize before) = some c →
      IsLeast {offset | ClosesAt (before ++ s) (Text.byteSize before) offset} c := by
    intro c h
    rw [closingOffset?_append] at h
    obtain ⟨⟨args, rest⟩, hfound, rfl⟩ := Option.map_eq_some_iff.mp h
    exact (closingParen?_eq_some_iff.mp hfound).isLeast before
  refine ⟨hleast c, fun h => ?_⟩
  cases hfound : closingOffset? (before ++ s) (Text.byteSize before) with
  | none => exact absurd h.1 (closingOffset?_eq_none_iff.mp hfound c)
  | some c' => rw [(hleast c' hfound).unique h]

end Least

/-! ### The depth of the search -/

section Depth

variable {n : Nat} {t : Text}

/-- The search through two texts has read the first of them, and stands before the second inside as
many parentheses as were opened and not closed. -/
structure SearchReaches (t u : Text) (depth : Nat) : Prop where
  balance : (outside.bare t).count '(' = (outside.bare t).count ')' + depth
  search : closing? outside 0 [] (t ++ u) = closing? (outside.after t) depth t.reverse u

lemma searchReaches_of_depthAfter? (h : outside.depthAfter? 0 t = some n) (u : Text) :
    SearchReaches t u n where
  balance := count_of_depthAfter? h
  search := by
    rw [closing?_append [] h, List.append_nil]

/-- The search comes to the end of everything before the parenthesis that it finds. -/
lemma exists_searchReaches (t u : Text)
    (hread : ∀ args rest, closingParen? (t ++ u) = some (args, rest) → t <+: args) :
    ∃ depth, SearchReaches t u depth := by
  have hsome : ∀ v, outside.depthAfter? 0 (t ++ v) ≠ none → ∃ depth, SearchReaches t u depth := by
    intro v hv
    obtain ⟨n, hn⟩ := Option.ne_none_iff_exists'.mp (depthAfter?_ne_none_of_append hv)
    exact ⟨n, searchReaches_of_depthAfter? hn u⟩
  cases hfound : closingParen? (t ++ u) with
  | none => exact hsome u (closing?_eq_none_iff.mp hfound)
  | some found =>
      obtain ⟨v, hv⟩ := hread found.1 found.2 hfound
      obtain ⟨args, hargs, -, -, hdepth⟩ := closing?_eq_some_iff.mp hfound
      rw [List.reverse_nil, List.nil_append, ← hv] at hargs
      exact hsome v (by simp [hargs, hdepth])

end Depth

/-! ### More text behind -/

section More

variable {s args rest : Text}

/-- A closing parenthesis is found whatever stands behind it. -/
lemma closingParen?_append_of_some (h : closingParen? s = some (args, rest)) (more : Text) :
    closingParen? (s ++ more) = some (args, rest ++ more) := by
  have hfirst := closingParen?_eq_some_iff.mp h
  rw [hfirst.split, List.append_assoc, List.cons_append]
  exact closingParen?_eq_some_iff.mpr
    (firstClosing_iff_leads.mpr (firstClosing_iff_leads.mp hfirst.self))

/-- Where none is found, one that more text brings stands in that text. -/
lemma prefix_of_closingParen?_append {more : Text} (h : closingParen? s = none)
    (hmore : closingParen? (s ++ more) = some (args, rest)) : s <+: args := by
  obtain ⟨n, hn⟩ := Option.ne_none_iff_exists'.mp (closing?_eq_none_iff.mp h)
  rw [closingParen?, (searchReaches_of_depthAfter? hn more).search] at hmore
  obtain ⟨t, rfl, -⟩ := closing?_eq_some_iff.mp hmore
  rw [List.reverse_reverse]
  exact List.prefix_append s t

variable {before : Text}

lemma closingOffset?_append_of_some {c : Nat}
    (h : closingOffset? (before ++ s) (Text.byteSize before) = some c) (more : Text) :
    closingOffset? (before ++ s ++ more) (Text.byteSize before) = some c := by
  rw [closingOffset?_append] at h
  obtain ⟨⟨args, rest⟩, hfound, rfl⟩ := Option.map_eq_some_iff.mp h
  rw [List.append_assoc, closingOffset?_append, closingParen?_append_of_some hfound more]
  rfl

lemma closingOffset?_append_of_none {c : Nat} {more : Text}
    (h : closingOffset? (before ++ s) (Text.byteSize before) = none)
    (hmore : closingOffset? (before ++ s ++ more) (Text.byteSize before) = some c) :
    Text.byteSize (before ++ s) ≤ c := by
  rw [closingOffset?_append, Option.map_eq_none_iff] at h
  rw [List.append_assoc, closingOffset?_append] at hmore
  obtain ⟨⟨args, rest⟩, hfound, rfl⟩ := Option.map_eq_some_iff.mp hmore
  obtain ⟨u, rfl⟩ := prefix_of_closingParen?_append h hfound
  simp only [Text.byteSize_append]
  omega

end More

/-! ### Openers -/

/-- A marker of an outline stands in the template at its offset, and ends there. -/
lemma Outline.exists_split_of_mem {source : Text} {o : Outline} {m : Marker}
    (h : ofText source = .ok o) (hm : m ∈ o.markers) :
    ∃ before rest, source = before ++ (m.source ++ rest) ∧
      Text.byteSize before = m.place.offset ∧ m.region.EndsAt rest := by
  obtain ⟨cs, hreads, hmarkers⟩ := exists_reads h
  rw [hmarkers, List.mem_filterMap] at hm
  obtain ⟨consumed, hmem, hmarker⟩ := hm
  obtain ⟨-, hregion, hplace⟩ := Region.marker?_eq_some_iff.mp hmarker
  obtain ⟨rest, hdrop, hend⟩ := (hreads.consumption quiet_zero).stands consumed hmem
  rw [← hregion] at hdrop hend
  refine ⟨source.take consumed.start, rest, ?_, ?_, hend⟩
  · rw [Marker.source, ← hdrop, List.take_append_drop]
  · rw [hplace, Place.offset_ofIndex]

/-- **An opener of an outline** ends right behind the closing parenthesis that is found from the end
of its tag on. -/
lemma Outline.closingOffset?_of_mem {source args : Text} {kind : Kind} {place : Place} {o : Outline}
    (h : ofText source = .ok o) (hm : .opener kind args place ∈ o.markers) :
    ∃ c, closingOffset? source (place.offset + Text.byteSize ('@' :: (Tag.opener kind).word)) =
      some c ∧ (Marker.opener kind args place).span.2 = c + 1 := by
  obtain ⟨before, rest, hsource, hbytes, hend⟩ := exists_split_of_mem h hm
  set tag : Text := '@' :: (Tag.opener kind).word
  have hbytes : Text.byteSize before = place.offset := hbytes
  have hsplit : source = before ++ tag ++ (args ++ ')' :: rest) := by
    rw [hsource]
    simp [Marker.source, Marker.region, Region.source, tag]
  have hclosing : closingParen? (args ++ ')' :: rest) = some (args, rest) :=
    closingParen?_eq_some_iff.mpr hend
  refine ⟨Text.byteSize (before ++ tag) + Text.byteSize args, ?_, ?_⟩
  · rw [hsplit, ← hbytes, ← Text.byteSize_append, closingOffset?_append, hclosing]
    rfl
  · calc (Marker.opener kind args place).span.2
        = place.offset + Text.byteSize (tag ++ args ++ [')']) := rfl
      _ = Text.byteSize (before ++ tag) + Text.byteSize args + 1 := by
          simp only [Text.byteSize_append, hbytes, Nat.add_assoc]
          rfl

/-- **The search for a closing parenthesis.**  From a boundary of a text on it finds the least
offset at which a `)` outside literals closes as many parentheses as were opened, and nothing where
there is none.  Over all that it reads its depth is the number of parentheses opened less the number
closed, which is never negative.  What it finds it finds whatever follows the text, and what it
finds only because of what follows does not lie before the end of the text. -/
theorem closingOffset?_least (source : Text) (start : Nat) (h : source.IsBoundary start) :
    (∀ c, closingOffset? source start = some c ↔
      IsLeast {offset | ClosesAt source start offset} c) ∧
    (closingOffset? source start = none ↔ ∀ offset, ¬ ClosesAt source start offset) ∧
    (∀ before t u, source = before ++ (t ++ u) → Text.byteSize before = start →
      (∀ c, closingOffset? source start = some c → start + Text.byteSize t ≤ c) →
      ∃ depth, SearchReaches t u depth) ∧
    (∀ more c, closingOffset? source start = some c →
      closingOffset? (source ++ more) start = some c) ∧
    ∀ more c, closingOffset? source start = none →
      closingOffset? (source ++ more) start = some c → Text.byteSize source ≤ c := by
  obtain ⟨before, ⟨s, rfl⟩, rfl⟩ := h
  refine ⟨fun c => closingOffset?_eq_some_iff, closingOffset?_eq_none_iff, ?_,
    fun more c hc => closingOffset?_append_of_some hc more,
    fun more c hnone hc => closingOffset?_append_of_none hnone hc⟩
  intro before' t u hsplit hbytes hread
  obtain ⟨-, rfl⟩ := Text.append_inj_of_byteSize hsplit hbytes.symm
  refine exists_searchReaches t u fun args rest hfound => ?_
  have hargs : args <+: t ++ u := by
    rw [(closingParen?_eq_some_iff.mp hfound).split]
    exact List.prefix_append args _
  have hle : Text.byteSize before + Text.byteSize t ≤ Text.byteSize before + Text.byteSize args :=
    hread _ (by rw [closingOffset?_append, hfound]; rfl)
  exact prefix_of_byteSize_le (List.prefix_append t u) hargs (Nat.le_of_add_le_add_left hle)

/-- A parenthesis in a literal behind a letter of two bytes, and a group, with more text behind; and
a literal that only the text behind it ends. -/
theorem closingOffset?_least_literal :
    let source : Text := "@allows(é')' (a)) b"
    let cutShort : Text := "@allows('a"
    source.IsBoundary 8 ∧ closingOffset? source 8 = some 17 ∧
    IsLeast {offset | ClosesAt source 8 offset} 17 ∧
    (∃ depth, SearchReaches "é')' (" "a)) b" depth) ∧ closingOffset? (source ++ ")") 8 = some 17 ∧
    cutShort.IsBoundary 8 ∧ closingOffset? cutShort 8 = none ∧
    (∀ offset, ¬ ClosesAt cutShort 8 offset) ∧ closingOffset? (cutShort ++ "')") 8 = some 11 ∧
    Text.byteSize cutShort ≤ 11 := by
  intro source cutShort
  have hboundary : source.IsBoundary 8 := by decide
  have hcutShort : cutShort.IsBoundary 8 := by decide
  have hfound : closingOffset? source 8 = some 17 := by decide
  have hnone : closingOffset? cutShort 8 = none := by decide
  have hmore : closingOffset? (cutShort ++ "')") 8 = some 11 := by decide
  obtain ⟨hleast, -, hreaches, hstable, -⟩ := closingOffset?_least source 8 hboundary
  obtain ⟨-, hempty, -, -, hbehind⟩ := closingOffset?_least cutShort 8 hcutShort
  refine ⟨hboundary, hfound, (hleast 17).mp hfound, ?_, hstable _ 17 hfound, hcutShort, hnone,
    hempty.mp hnone, hmore, hbehind _ 11 hnone hmore⟩
  refine hreaches "@allows(" _ _ rfl rfl fun c hc => ?_
  rw [hfound] at hc
  cases hc
  decide

end TemplateGuards
