import TemplateGuards.Proofs.ReportNames
import TemplateGuards.Proofs.TextOrder

/-!
The listing of the files of a tree.  Where every directory gives its entries different names, each
file is listed once, with the place where it is found, and the places come in the order of their
names, one name after the other.

* `Tree.WellNamed`: the trees with such directories;
* `WellNamed.mem_files_iff`: what is listed is what is found;
* `WellNamed.pairwise_files`: the order of the listing.
-/

namespace TemplateGuards

open TemplateGuards.Path

/-- Every directory of the tree gives its entries different names, and names that entries may
have. -/
inductive Tree.WellNamed : Tree → Prop
  | file (content : Content) : WellNamed (.file content)
  | directory {entries : List (Text × Tree)} (nodup : (entries.map Prod.fst).Nodup)
      (isName : ∀ e ∈ entries, IsName e.1) (inner : ∀ e ∈ entries, WellNamed e.2) :
      WellNamed (.directory entries)

namespace Tree

variable {t : Tree} {entries : List (Text × Tree)}

/-! ### Entries -/

/-- An entry with a name of its own is the one that the name finds. -/
lemma lookup_eq_some_of_mem {name : Text} (hnodup : (entries.map Prod.fst).Nodup)
    (h : (name, t) ∈ entries) : entries.lookup name = some t := by
  induction entries with
  | nil => simp at h
  | cons e es ih =>
      obtain ⟨n, t'⟩ := e
      rw [List.map_cons, List.nodup_cons] at hnodup
      rw [lookup_cons_eq_ite]
      rcases List.mem_cons.mp h with heq | hmem
      · obtain ⟨rfl, rfl⟩ := Prod.mk.inj heq
        rw [if_pos rfl]
      · have hne : name ≠ n := by
          rintro rfl
          exact hnodup.1 (List.mem_map.mpr ⟨_, hmem, rfl⟩)
        rw [if_neg hne, ih hnodup.2 hmem]

lemma map_fst_filesOfEntries (entries : List (Text × Tree)) :
    (filesOfEntries entries).map Prod.fst = entries.map Prod.fst := by
  induction entries with
  | nil => rfl
  | cons e es ih => rw [filesOfEntries, List.map_cons, List.map_cons, ih]

/-- Named things with different names come in increasing order. -/
lemma pairwise_byName {α : Type} {named : List (Text × α)}
    (hnodup : (named.map Prod.fst).Nodup) : (byName named).Pairwise fun a b => a.1 < b.1 := by
  have hsorted : (byName named).Pairwise fun a b => (compare a.1 b.1).isLE = true :=
    pairwise_mergeSort_isLE (compareOn Prod.fst) named
  have hne : (byName named).Pairwise fun a b => a.1 ≠ b.1 := by
    rw [← List.pairwise_map (f := Prod.fst) (R := (· ≠ ·))]
    exact ((List.mergeSort_perm named _).map Prod.fst).nodup_iff.mpr hnodup
  refine hsorted.imp₂ (fun a b hle hne => ?_) hne
  rw [← Text.compare_eq_lt_iff]
  cases h : compare a.1 b.1 with
  | lt => rfl
  | eq => exact absurd (Std.LawfulEqCmp.eq_of_compare h) hne
  | gt => simp [h] at hle

namespace WellNamed

lemma named (h : t.WellNamed) : t.Named := by
  induction h with
  | file content => exact .file content
  | directory _ isName _ ih => exact .directory fun e he => ⟨isName e he, ih e he⟩

lemma get? (h : t.WellNamed) {place : List Text} {inner : Tree}
    (hget : t.get? place = some inner) : inner.WellNamed := by
  induction place generalizing t with
  | nil =>
      obtain rfl : t = inner := by simpa [Tree.get?] using hget
      exact h
  | cons n ns ih =>
      cases h with
      | file content => simp [Tree.get?] at hget
      | @directory entries _ _ hinner =>
          cases hl : entries.lookup n with
          | none => simp [Tree.get?, hl] at hget
          | some t' =>
              refine ih (hinner _ (lookup_mem hl)) ?_
              simpa [Tree.get?, hl] using hget

/-- **What is listed is what is found.** -/
lemma mem_files_iff (h : t.WellNamed) {place : List Text} {content : Content} :
    (place, content) ∈ t.files ↔ t.get? place = some (.file content) := by
  refine ⟨fun hmem => ?_, mem_files_of_get?⟩
  induction h generalizing place with
  | file content' =>
      obtain ⟨rfl, rfl⟩ : place = [] ∧ content = content' := by simpa [files] using hmem
      rfl
  | @directory entries nodup _ _ ih =>
      obtain ⟨name, below, _, hinner, hbelow, rfl⟩ := mem_files_directory.mp hmem
      obtain ⟨t', ht', rfl⟩ := exists_of_mem_filesOfEntries hinner
      rw [Tree.get?, lookup_eq_some_of_mem nodup ht']
      exact ih _ ht' hbelow

/-- **The order of the listing.** -/
lemma pairwise_files (h : t.WellNamed) : t.files.Pairwise fun a b => a.1 < b.1 := by
  induction h with
  | file content => exact List.pairwise_singleton _ _
  | @directory entries nodup _ _ ih =>
      rw [files, List.pairwise_flatMap]
      constructor
      · -- the files of one entry
        rintro ⟨name, inner⟩ hinner
        obtain ⟨t', ht', rfl⟩ := exists_of_mem_filesOfEntries (List.mem_mergeSort.mp hinner)
        rw [List.pairwise_map]
        exact (ih _ ht').imp fun hlt => List.cons_lt_cons_iff.mpr (.inr ⟨rfl, hlt⟩)
      · -- the files of two entries
        refine (pairwise_byName ?_).imp fun hlt => ?_
        · rwa [map_fst_filesOfEntries]
        · rintro x hx y hy
          obtain ⟨_, -, rfl⟩ := List.mem_map.mp hx
          obtain ⟨_, -, rfl⟩ := List.mem_map.mp hy
          exact List.cons_lt_cons_iff.mpr (.inl hlt)

end WellNamed

end Tree

end TemplateGuards
