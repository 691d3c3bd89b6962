import TemplateGuards.Text

/-!
White space, as the Unicode property White_Space defines it, and the removal of white space at
the two ends of a text.

* `isBlank`: the property, as its table of ranges;
* `trim`: a text without the white space at its ends;
* `trim_append`: white space at the ends does not matter to `trim`.
-/

namespace TemplateGuards.Text

/-- The characters with the property White_Space. -/
def blankRanges : List (Nat × Nat) :=
  [(0x09, 0x0D), (0x20, 0x20), (0x85, 0x85), (0xA0, 0xA0), (0x1680, 0x1680), (0x2000, 0x200A),
   (0x2028, 0x2029), (0x202F, 0x202F), (0x205F, 0x205F), (0x3000, 0x3000)]

/-- Is the character white space? -/
def isBlank (c : Char) : Bool :=
  blankRanges.any fun (first, last) => first ≤ c.toNat && c.toNat ≤ last

/-- Is every character of the text white space? -/
def allBlank (t : Text) : Bool := t.all isBlank

/-- The text without white space at its end. -/
def trimEnd (t : Text) : Text := (t.reverse.dropWhile isBlank).reverse

/-- The text without white space at its two ends. -/
def trim (t : Text) : Text := trimEnd (t.dropWhile isBlank)

/-! ### Laws -/

theorem ne_of_isBlank {c d : Char} (hc : isBlank c = true) (hd : isBlank d = false) : c ≠ d := by
  rintro rfl
  simp [hc] at hd

theorem dropWhile_eq_nil_of_allBlank {t : Text} (h : allBlank t = true) :
    t.dropWhile isBlank = [] := by
  induction t with
  | nil => rfl
  | cons c cs ih => simp_all [allBlank]

theorem dropWhile_append_of_allBlank {u : Text} (h : allBlank u = true) (t : Text) :
    (u ++ t).dropWhile isBlank = t.dropWhile isBlank := by
  induction u with
  | nil => rfl
  | cons c cs ih => simp_all [allBlank]

/-- White space after a text does not matter to `trimEnd`. -/
theorem trimEnd_append {v : Text} (h : allBlank v = true) (t : Text) :
    trimEnd (t ++ v) = trimEnd t := by
  have : allBlank v.reverse = true := by simpa [allBlank] using h
  rw [trimEnd, List.reverse_append, dropWhile_append_of_allBlank this, trimEnd]

theorem dropWhile_append_of_ne_nil {t : Text} (h : t.dropWhile isBlank ≠ []) (v : Text) :
    (t ++ v).dropWhile isBlank = t.dropWhile isBlank ++ v := by
  induction t with
  | nil => exact absurd rfl h
  | cons c cs ih =>
    rw [List.cons_append, List.dropWhile_cons, List.dropWhile_cons]
    rw [List.dropWhile_cons] at h
    split
    · next hc => exact ih (by simpa [hc] using h)
    · rfl

theorem allBlank_of_dropWhile_eq_nil {t : Text} (h : t.dropWhile isBlank = []) :
    allBlank t = true := by
  induction t with
  | nil => rfl
  | cons c cs ih =>
    rw [List.dropWhile_cons] at h
    split at h
    · next hc => simpa [allBlank, hc] using ih h
    · simp at h

/-- White space at the two ends does not matter to `trim`. -/
theorem trim_append {u v : Text} (hu : allBlank u = true) (hv : allBlank v = true) (t : Text) :
    trim (u ++ t ++ v) = trim t := by
  rw [trim, List.append_assoc, dropWhile_append_of_allBlank hu, trim]
  by_cases h : t.dropWhile isBlank = []
  · have ht : allBlank (t ++ v) = true := by
      have := allBlank_of_dropWhile_eq_nil h
      simp_all [allBlank]
    rw [dropWhile_eq_nil_of_allBlank ht, h]
  · rw [dropWhile_append_of_ne_nil h, trimEnd_append hv]

end TemplateGuards.Text
