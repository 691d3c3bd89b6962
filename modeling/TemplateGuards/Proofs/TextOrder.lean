import Mathlib.Tactic.Common
import TemplateGuards.Text

/-!
The order of texts.  Texts are compared character by character, and that is the order of their
UTF-8 forms, byte by byte.

* `pairwise_mergeSort_isLE`: a list sorted by a comparison;
* `Text.bytes`: the UTF-8 form of a text;
* `utf8EncodeChar_lt`: a smaller character has the smaller form, whatever follows;
* `compare_eq_lt_iff`, `bytes_lt_bytes`, `bytes_lt_bytes_iff`: the comparison of texts, in
  characters and in bytes.
-/

namespace TemplateGuards

/-- A list sorted by a comparison is in its order. -/
lemma pairwise_mergeSort_isLE {α : Type} (cmp : α → α → Ordering) [Std.TransCmp cmp]
    (as : List α) :
    (as.mergeSort fun a b => (cmp a b).isLE).Pairwise fun a b => (cmp a b).isLE = true := by
  refine List.pairwise_mergeSort (fun a b c => Std.TransCmp.isLE_trans) (fun a b => ?_) as
  rw [Bool.or_eq_true, ← Std.OrientedCmp.isGE_iff_isLE]
  cases cmp b a <;> simp

namespace Text

/-- The UTF-8 form of a text. -/
def bytes (t : Text) : List UInt8 := t.flatMap String.utf8EncodeChar

lemma bytes_cons (c : Char) (t : Text) : bytes (c :: t) = String.utf8EncodeChar c ++ bytes t :=
  List.flatMap_cons

/-- The first byte decides, and the rest where it is the same. -/
lemma ofNat_cons_lt_iff {a b : Nat} (ha : a < 256) (hb : b < 256) {s t : List UInt8} :
    UInt8.ofNat a :: s < UInt8.ofNat b :: t ↔ a < b ∨ a = b ∧ s < t := by
  rw [List.cons_lt_cons_iff, UInt8.lt_iff_toNat_lt, ← UInt8.toNat_inj, UInt8.toNat_ofNat',
    UInt8.toNat_ofNat', Nat.mod_eq_of_lt ha, Nat.mod_eq_of_lt hb]

/-- A smaller character has the smaller form, whatever follows. -/
lemma utf8EncodeChar_lt {c d : Char} (h : c < d) (s t : List UInt8) :
    String.utf8EncodeChar c ++ s < String.utf8EncodeChar d ++ t := by
  have hlt : c.val.toNat < d.val.toNat := h
  have hd : d.val.toNat < 0x110000 := by
    rcases d.valid with h | h <;> omega
  -- the bytes behind the first are digits of the number to the base 64
  have hsquare (n : Nat) : n / 4096 = n / 64 / 64 := by omega
  have hcube (n : Nat) : n / 262144 = n / 64 / 64 / 64 := by omega
  simp only [String.utf8EncodeChar, hsquare, hcube]
  split_ifs <;> simp (disch := omega) only [List.cons_append, ofNat_cons_lt_iff] <;> omega

lemma compare_char_eq_lt_iff {c d : Char} : compare c d = .lt ↔ c < d := by
  rw [compare, instOrdChar]
  exact compareOfLessAndEq_eq_lt

lemma compare_eq_lt_iff {s t : Text} : compare s t = .lt ↔ s < t := by
  induction s generalizing t with
  | nil => cases t <;> simp
  | cons c s ih =>
      cases t with
      | nil => simp
      | cons d t =>
          rw [List.compare_cons_cons, List.cons_lt_cons_iff, Ordering.then_eq_lt, ih,
            compare_char_eq_lt_iff, Std.compare_eq_iff_eq]

/-- **The order of texts is that of their UTF-8 forms.** -/
lemma bytes_lt_bytes {s t : Text} (h : s < t) : bytes s < bytes t := by
  induction s generalizing t with
  | nil =>
      cases t with
      | nil => simp at h
      | cons d t =>
          obtain ⟨b, bs, hd⟩ := List.exists_cons_of_ne_nil (String.utf8EncodeChar_ne_nil (c := d))
          rw [bytes_cons, hd]
          exact List.nil_lt_cons b _
  | cons c s ih =>
      cases t with
      | nil => simp at h
      | cons d t =>
          rw [bytes_cons, bytes_cons]
          rcases List.cons_lt_cons_iff.mp h with hcd | ⟨rfl, hst⟩
          · exact utf8EncodeChar_lt hcd _ _
          · exact List.append_left_lt (ih hst)

lemma bytes_lt_bytes_iff {s t : Text} : bytes s < bytes t ↔ s < t := by
  refine ⟨fun h => ?_, bytes_lt_bytes⟩
  cases hcompare : compare s t with
  | lt => exact compare_eq_lt_iff.mp hcompare
  | eq =>
      obtain rfl : s = t := Std.LawfulEqOrd.eq_of_compare hcompare
      exact absurd h (List.lt_irrefl _)
  | gt =>
      have hts : t < s := compare_eq_lt_iff.mp (Std.OrientedCmp.gt_iff_lt.mp hcompare)
      exact absurd h (List.lt_asymm (bytes_lt_bytes hts))

end Text

end TemplateGuards
