import Mathlib.Data.List.Basic
import TemplateGuards.Proofs.Segments

/-!
The components of composed paths.  Idle segments add none, names below a directory come after
those of the directory, and what is left behind the directory are the names again.

* `components_append`: a path that is continued after a separator;
* `components_join`, `components_below`: names below a directory;
* `behind?_below`: what is left of the path of an entry behind its directory.
-/

namespace TemplateGuards.Path

variable {names : List Text}

/-! ### Paths that are continued -/

lemma isAbsolute_append (s t : Text) :
    isAbsolute (s ++ separator :: t) = isAbsolute (s ++ [separator]) := by
  cases s <;> rfl

/-- A path that is continued has the components of its segments after its own. -/
lemma components_append (s t : Text) :
    components (s ++ separator :: t) =
      components (s ++ [separator]) ++ (segments t).filterMap component? := by
  obtain ⟨first, rest, hs⟩ := List.exists_cons_of_ne_nil (segments_ne_nil s)
  have hidle : (segments []).filterMap component? = [] := rfl
  simp only [components, segments_append, hs, List.cons_append, firstComponent?,
    isAbsolute_append s t, List.filterMap_append, hidle, List.append_nil, List.append_assoc]

/-- A separator at the end adds no component, except to the empty path. -/
lemma components_append_separator {s : Text} (h : s ≠ []) :
    components (s ++ [separator]) = components s := by
  obtain ⟨first, rest, hs⟩ := List.exists_cons_of_ne_nil (segments_ne_nil s)
  have habs : isAbsolute (s ++ [separator]) = isAbsolute s := by
    obtain ⟨c, s, rfl⟩ := List.exists_cons_of_ne_nil h
    rfl
  have hidle : (segments []).filterMap component? = [] := rfl
  simp only [components, segments_append, hs, firstComponent?, habs, List.cons_append,
    List.filterMap_append, hidle, List.append_nil]

/-! ### Names -/

lemma component?_of_isName {n : Text} (h : IsName n) : component? n = some (.name n) := by
  simp [component?, h.not_idle, h.ne_up]

lemma filterMap_component?_of_isName (h : ∀ n ∈ names, IsName n) :
    names.filterMap component? = names.map .name := by
  rw [List.filterMap_congr fun n hn => component?_of_isName (h n hn), List.filterMap_eq_map']

/-- The components of a path made of names. -/
lemma components_ofNames (hne : names ≠ []) (h : ∀ n ∈ names, IsName n) :
    components (ofNames names) = names.map .name := by
  obtain ⟨n, ns, rfl⟩ := List.exists_cons_of_ne_nil hne
  have hn : IsName n := h n List.mem_cons_self
  have hfirst : firstComponent? (ofNames (n :: ns)) n = some (.name n) := by
    have hcurrent : n ≠ ['.'] := by
      rintro rfl
      exact absurd hn.not_idle (by decide)
    simp [firstComponent?, isAbsolute_ofNames h, hcurrent, component?_of_isName hn]
  simp only [components, segments_ofNames hne fun m hm => (h m hm).separator_not_mem, hfirst,
    filterMap_component?_of_isName fun m hm => h m (List.mem_cons_of_mem n hm)]
  rfl

/-- **Names below a directory** come after the components of the directory. -/
lemma components_join (directory : Text) (hne : names ≠ []) (h : ∀ n ∈ names, IsName n) :
    components (join directory (ofNames names)) = components directory ++ names.map .name := by
  have hnames : (segments (ofNames names)).filterMap component? = names.map .name := by
    rw [segments_ofNames hne fun n hn => (h n hn).separator_not_mem,
      filterMap_component?_of_isName h]
  rw [join, isAbsolute_ofNames h, if_neg Bool.false_ne_true]
  by_cases hnil : directory = []
  · rw [hnil]
    exact components_ofNames hne h
  · split
    · next hend =>
        -- the separator is there already
        have hlast : directory.getLast? = some separator := by simpa [hnil] using hend
        obtain ⟨above, rfl⟩ := List.getLast?_eq_some_iff.mp hlast
        rw [List.append_assoc, List.singleton_append, components_append, hnames]
    · rw [components_append, components_append_separator hnil, hnames]

/-- The components of the path of an entry below a directory. -/
lemma components_below (directory : Text) (h : ∀ n ∈ names, IsName n) :
    components (below directory names) = components directory ++ names.map .name := by
  induction names generalizing directory with
  | nil => simp [below]
  | cons n ns ih =>
      obtain ⟨hn, hns⟩ := List.forall_mem_cons.mp h
      have hone := components_join directory (List.cons_ne_nil n [])
        (List.forall_mem_singleton.mpr hn)
      rw [show ofNames [n] = n by simp [ofNames]] at hone
      rw [below, List.foldl_cons, ← below, ih (join directory n) hns, hone, List.append_assoc]
      rfl

lemma ofComponents_names (names : List Text) :
    ofComponents (names.map .name) = ofNames names := by
  have htexts : (names.map Component.name).map Component.text = names := by
    rw [List.map_map]
    exact List.map_id names
  rw [ofComponents.eq_def]
  split
  · next h => cases names <;> simp at h
  · rw [htexts]

/-- **What is left of the path of an entry** behind its directory are the names of the entry. -/
lemma behind?_below (directory : Text) (h : ∀ n ∈ names, IsName n) :
    behind? directory (below directory names) = some (ofNames names) := by
  have hbehind : (components directory).isPrefixOf? (components (below directory names)) =
      some (names.map .name) :=
    List.isPrefixOf?_eq_some_iff_append_eq.mpr (components_below directory h).symm
  rw [behind?, hbehind, Option.map_some, ofComponents_names]

end TemplateGuards.Path
