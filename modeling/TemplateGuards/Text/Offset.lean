import TemplateGuards.Text

/-!
Byte offsets in a text.  A text can be cut at the offsets at which one of its characters starts
or the text ends, its boundaries, and nowhere else.

* `Text.IsBoundary`: the boundaries of a text;
* `Text.cutAt?`: the two parts of a text at a byte offset, `Text.between?` the part between two;
* `Text.cutAt?_eq_some_iff`: the parts make up the text, and the first has as many bytes.
-/

namespace TemplateGuards.Text

/-- Does a character of the text start at the byte offset, or the text end there? -/
def IsBoundary (t : Text) (offset : Nat) : Prop := ∃ before, before <+: t ∧ byteSize before = offset

/-- The text before and the text after a byte offset; `none` where the offset is no boundary. -/
def cutAt? : Nat → Text → Option (Text × Text)
  | 0, t => some ([], t)
  | _ + 1, [] => none
  | n + 1, c :: t =>
    if c.utf8Size ≤ n + 1 then
      (cutAt? (n + 1 - c.utf8Size) t).map fun (before, after) => (c :: before, after)
    else none

/-- The text between two byte offsets; `none` unless both are boundaries, in their order. -/
def between? (first last : Nat) (t : Text) : Option Text :=
  match cutAt? last t with
  | some (before, _) => (cutAt? first before).map (·.2)
  | none => none

/-! ### Laws -/

/-- At the byte size of its first part a text is cut behind that part. -/
theorem cutAt?_append (before after : Text) :
    cutAt? (byteSize before) (before ++ after) = some (before, after) := by
  induction before with
  | nil => cases after <;> rfl
  | cons c before ih =>
    obtain ⟨n, hn⟩ : ∃ n, c.utf8Size + byteSize before = n + 1 :=
      Nat.exists_eq_succ_of_ne_zero (by have := c.utf8Size_pos; omega)
    have hrest : n + 1 - c.utf8Size = byteSize before := by omega
    rw [byteSize_cons, List.cons_append, hn, cutAt?, if_pos (by omega), hrest, ih]
    rfl

/-- The parts make up the text, and the first one ends at the offset. -/
theorem cutAt?_eq_some_iff {n : Nat} {t before after : Text} :
    cutAt? n t = some (before, after) ↔ t = before ++ after ∧ byteSize before = n := by
  constructor
  · intro h
    fun_induction cutAt? n t generalizing before with
    | case1 t =>
      obtain ⟨rfl, rfl⟩ : [] = before ∧ t = after := by simpa using h
      exact ⟨rfl, rfl⟩
    | case2 => simp at h
    | case3 n c t hc ih =>
      obtain ⟨⟨b, a⟩, hcut, heq⟩ := Option.map_eq_some_iff.1 h
      obtain ⟨rfl, rfl⟩ : c :: b = before ∧ a = after := by simpa using heq
      obtain ⟨rfl, hb⟩ := ih hcut
      exact ⟨rfl, by rw [byteSize_cons]; omega⟩
    | case4 => simp at h
  · rintro ⟨rfl, rfl⟩
    exact cutAt?_append before after

/-- Two ways to make up one text of two parts are the same if the first parts have as many bytes. -/
theorem append_inj_of_byteSize {s t s' t' : Text} (h : s ++ t = s' ++ t')
    (hbytes : byteSize s = byteSize s') : s = s' ∧ t = t' := by
  have hcut := cutAt?_append s t
  rw [h, hbytes, cutAt?_append] at hcut
  obtain ⟨hs, ht⟩ := Prod.mk.inj (Option.some.inj hcut)
  exact ⟨hs.symm, ht.symm⟩

/-- A text can be cut at its boundaries. -/
theorem isBoundary_iff {t : Text} {n : Nat} : t.IsBoundary n ↔ (cutAt? n t).isSome := by
  rw [Option.isSome_iff_exists, IsBoundary]
  constructor
  · rintro ⟨before, ⟨after, rfl⟩, rfl⟩
    exact ⟨(before, after), cutAt?_append before after⟩
  · rintro ⟨⟨before, after⟩, h⟩
    obtain ⟨rfl, rfl⟩ := cutAt?_eq_some_iff.1 h
    exact ⟨before, List.prefix_append before after, rfl⟩

instance (t : Text) (n : Nat) : Decidable (t.IsBoundary n) := decidable_of_iff _ isBoundary_iff.symm

/-- Between the ends of its first two parts a text has its second part. -/
theorem between?_append (s t u : Text) :
    between? (byteSize s) (byteSize (s ++ t)) (s ++ t ++ u) = some t := by
  rw [between?, cutAt?_append]
  simp [cutAt?_append]

/-- A part that ends where the text cannot be cut is none. -/
theorem between?_of_not_isBoundary {t : Text} {last : Nat} (h : ¬ t.IsBoundary last)
    (first : Nat) : between? first last t = none := by
  have hcut : cutAt? last t = none := by simpa [isBoundary_iff] using h
  rw [between?, hcut]

end TemplateGuards.Text
