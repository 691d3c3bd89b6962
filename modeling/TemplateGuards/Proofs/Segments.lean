import TemplateGuards.Files.Disk
import Mathlib.Data.List.Induction

/-!
The segments of composed paths.  What a path names depends on its start and on its segments other
than the idle ones, its steps; `Disk.steps` is compatible with joining and with taking the parent.

* `Path.IsName`: the segments that are names of entries;
* `segments_ofNames`: a path made of names has them as its segments;
* `segments_join`, `parent?_eq_some`: the segments of a joined path and the steps of a parent;
* `Path.walk`: the place to which segments lead where every directory on the way is there.
-/

namespace TemplateGuards

lemma Text.splitOn_append (sep : Char) (s t : Text) :
    splitOn sep (s ++ sep :: t) = splitOn sep s ++ splitOn sep t := by
  induction s with
  | nil => simp [splitOn]
  | cons c s ih =>
      by_cases hc : c = sep
      · simp [splitOn, hc, ih]
      · obtain ⟨part, parts, hs⟩ := List.exists_cons_of_ne_nil (splitOn_ne_nil sep s)
        simp [splitOn, hc, ih, hs]

lemma Text.splitOn_of_not_mem {sep : Char} {t : Text} (h : sep ∉ t) : splitOn sep t = [t] := by
  induction t with
  | nil => rfl
  | cons c t ih =>
      rw [List.mem_cons, not_or] at h
      simp [splitOn, Ne.symm h.1, ih h.2]

lemma Text.not_mem_of_mem_splitOn {sep : Char} {t part : Text} (h : part ∈ splitOn sep t) :
    sep ∉ part := by
  induction t generalizing part with
  | nil => simp_all [splitOn]
  | cons c t ih =>
      obtain ⟨first, rest, hs⟩ := List.exists_cons_of_ne_nil (splitOn_ne_nil sep t)
      rw [hs] at ih
      by_cases hc : c = sep
      · rw [splitOn, if_pos hc, hs, List.mem_cons] at h
        rcases h with rfl | h
        · simp
        · exact ih h
      · rw [splitOn, if_neg hc, hs, List.mem_cons] at h
        rcases h with rfl | h
        · simpa [Ne.symm hc] using ih List.mem_cons_self
        · exact ih (List.mem_cons_of_mem _ h)

namespace Path

/-! ### Segments -/

lemma segments_ne_nil (path : Text) : segments path ≠ [] := Text.splitOn_ne_nil _ path

lemma segments_append (s t : Text) :
    segments (s ++ separator :: t) = segments s ++ segments t := Text.splitOn_append _ s t

lemma separator_not_mem {path segment : Text} (h : segment ∈ segments path) :
    separator ∉ segment := Text.not_mem_of_mem_splitOn h

lemma ofNames_cons {part : Text} {parts : List Text} (h : parts ≠ []) :
    ofNames (part :: parts) = part ++ separator :: ofNames parts := by
  obtain ⟨next, parts, rfl⟩ := List.exists_cons_of_ne_nil h
  simp [ofNames, List.intercalate, List.intersperse]

lemma ofNames_append {above below : List Text} (ha : above ≠ []) (hb : below ≠ []) :
    ofNames (above ++ below) = ofNames above ++ separator :: ofNames below := by
  induction above with
  | nil => exact absurd rfl ha
  | cons n ns ih =>
      rw [List.cons_append, ofNames_cons (by simp [hb])]
      by_cases hns : ns = []
      · simp [hns, ofNames]
      · rw [ih hns, ofNames_cons hns, List.append_assoc, List.cons_append]

/-- A path made of parts without a separator has them as its segments. -/
lemma segments_ofNames {parts : List Text} (hne : parts ≠ [])
    (h : ∀ part ∈ parts, separator ∉ part) : segments (ofNames parts) = parts := by
  induction parts with
  | nil => exact absurd rfl hne
  | cons part parts ih =>
      cases parts with
      | nil => simpa [ofNames, segments] using Text.splitOn_of_not_mem (h part (by simp))
      | cons next parts =>
          have htail := ih (by simp) fun p hp => h p (List.mem_cons_of_mem _ hp)
          rw [ofNames_cons (List.cons_ne_nil next parts), segments_append, htail]
          simp [segments, Text.splitOn_of_not_mem (h part (by simp))]

/-- A path starts at the root when its first segment is empty and not its only one. -/
lemma isAbsolute_iff {path : Text} :
    isAbsolute path = true ↔ ∃ rest, rest ≠ [] ∧ segments path = [] :: rest := by
  cases path with
  | nil => simp [isAbsolute, segments, Text.splitOn]
  | cons c path =>
      by_cases hc : c = separator
      · simp [isAbsolute, segments, Text.splitOn, hc, Text.splitOn_ne_nil]
      · obtain ⟨part, parts, hs⟩ := List.exists_cons_of_ne_nil (Text.splitOn_ne_nil separator path)
        simp [isAbsolute, segments, Text.splitOn, hc, hs]

/-! ### Names -/

/-- Can an entry of a directory have the name? -/
structure IsName (name : Text) : Prop where
  not_idle : isIdle name = false
  ne_up : name ≠ ['.', '.']
  separator_not_mem : separator ∉ name

instance (name : Text) : Decidable (IsName name) :=
  decidable_of_iff (isIdle name = false ∧ name ≠ ['.', '.'] ∧ separator ∉ name)
    ⟨fun h => ⟨h.1, h.2.1, h.2.2⟩, fun h => ⟨h.not_idle, h.ne_up, h.separator_not_mem⟩⟩

lemma IsName.ne_nil {name : Text} (h : IsName name) : name ≠ [] := by
  rintro rfl
  exact absurd h.not_idle (by decide)

lemma isAbsolute_ofNames {names : List Text} (h : ∀ n ∈ names, IsName n) :
    isAbsolute (ofNames names) = false := by
  cases names with
  | nil => rfl
  | cons n ns =>
      rw [← Bool.not_eq_true, isAbsolute_iff,
        segments_ofNames (by simp) fun m hm => (h m hm).separator_not_mem]
      rintro ⟨rest, -, hrest⟩
      exact (h n (by simp)).ne_nil (List.cons.inj hrest).1

end Path

/-! ### Steps -/

namespace Disk

open TemplateGuards.Path

/-- **The segments of a joined path**: those of the path behind ones with the steps of the
directory. -/
lemma segments_join {directory path : Text} (h : isAbsolute path = false) :
    ∃ above, segments (join directory path) = above ++ segments path ∧
      above.filter (fun s => !isIdle s) = steps directory := by
  rw [join, h, if_neg Bool.false_ne_true]
  split
  · next hd =>
      rcases Bool.or_eq_true_iff.mp hd with hnil | hlast
      · rw [List.isEmpty_iff.mp hnil]
        exact ⟨[], rfl, rfl⟩
      · -- the separator is there already
        obtain ⟨above, rfl⟩ := List.getLast?_eq_some_iff.mp (by simpa using hlast)
        refine ⟨segments above, ?_, ?_⟩
        · rw [List.append_assoc, List.singleton_append, segments_append]
        · rw [steps, segments_append, List.filter_append]
          simp [segments, Text.splitOn, isIdle]
  · exact ⟨segments directory, segments_append _ _, rfl⟩

lemma join_ne_nil {directory path : Text} (h : path ≠ []) : join directory path ≠ [] := by
  rw [join]
  split_ifs <;> simp [h]

lemma startOf_join (d : Disk) {directory path : Text} (h : isAbsolute path = false) :
    d.startOf (join directory path) = d.startOf directory := by
  rw [startOf, startOf, join, h, if_neg Bool.false_ne_true]
  cases directory with
  | nil => simp [h, show isAbsolute [] = false from rfl]
  | cons c cs => split <;> rfl

end Disk

namespace Path

lemma dropAtEnd_concat {α : Type} {p : α → Bool} {as : List α} {a : α} (h : p a = false) :
    dropAtEnd p (as ++ [a]) = as ++ [a] := by
  simp [dropAtEnd, h]

lemma filter_dropAtEnd {α : Type} (p : α → Bool) (as : List α) :
    (dropAtEnd p as).filter (fun a => !p a) = as.filter (fun a => !p a) := by
  induction as using List.reverseRecOn with
  | nil => rfl
  | append_singleton as a ih =>
      cases h : p a with
      | true =>
          have hdrop : dropAtEnd p (as ++ [a]) = dropAtEnd p as := by simp [dropAtEnd, h]
          rw [hdrop, ih, List.filter_append]
          simp [h]
      | false => rw [dropAtEnd_concat h]

lemma mem_of_mem_dropAtEnd {α : Type} {p : α → Bool} {as : List α} {a : α}
    (h : a ∈ dropAtEnd p as) : a ∈ as := by
  rw [dropAtEnd, List.mem_reverse] at h
  exact List.mem_reverse.mp ((List.dropWhile_sublist p).subset h)

/-- **The parent of a path that ends in a name**: its start and all its steps but the last. -/
lemma parent?_eq_some {path last : Text} {above : List Text}
    (hpath : segments path = above ++ [last]) (hlast : isIdle last = false) :
    ∃ parent, parent? path = some parent ∧ isAbsolute parent = isAbsolute path ∧
      Disk.steps parent = above.filter fun s => !isIdle s := by
  have hsep : ∀ s ∈ above, separator ∉ s := fun s hs =>
    @separator_not_mem path s (by simp [hpath, hs])
  cases above with
  | nil =>
      refine ⟨[], ?_, ?_, rfl⟩
      · have hne : last ≠ [] := by
          rintro rfl
          exact absurd hlast (by decide)
        simp [parent?, hpath, dropAtEnd, hne]
      · rw [eq_comm, show isAbsolute [] = false from rfl, ← Bool.not_eq_true, isAbsolute_iff]
        rintro ⟨rest, hrest, heq⟩
        rw [hpath] at heq
        exact hrest (by simpa using (List.cons.inj heq).2.symm)
  | cons first rest =>
      have hparent : parent? path =
          if first = [] ∧ dropAtEnd isIdle rest = [] then some [separator]
          else some (ofNames (first :: dropAtEnd isIdle rest)) := by
        simp only [parent?, hpath, List.cons_append, dropAtEnd_concat hlast]
        cases hkept : rest ++ [last] with
        | nil => simp at hkept
        | cons k ks =>
            have hdrop : (k :: ks).dropLast = rest := by rw [← hkept, List.dropLast_concat]
            simp only [hdrop]
            cases first <;> cases dropAtEnd isIdle rest <;> rfl
      have habs : isAbsolute path = decide (first = []) := by
        rw [Bool.eq_iff_iff, isAbsolute_iff, hpath, decide_eq_true_iff]
        simp
      have hfilter := filter_dropAtEnd isIdle rest
      by_cases hroot : first = [] ∧ dropAtEnd isIdle rest = []
      · rw [hroot.2, List.filter_nil] at hfilter
        refine ⟨[separator], by rw [hparent, if_pos hroot], ?_, ?_⟩
        · rw [habs, decide_eq_true hroot.1]
          rfl
        rw [List.filter_cons, ← hfilter, hroot.1]
        rfl
      · have hseg : segments (ofNames (first :: dropAtEnd isIdle rest)) =
            first :: dropAtEnd isIdle rest := by
          refine segments_ofNames (by simp) fun s hs => hsep s ?_
          rcases List.mem_cons.mp hs with rfl | hs
          · exact List.mem_cons_self
          · exact List.mem_cons_of_mem _ (mem_of_mem_dropAtEnd hs)
        refine ⟨ofNames (first :: dropAtEnd isIdle rest), by rw [hparent, if_neg hroot], ?_, ?_⟩
        · rw [habs, Bool.eq_iff_iff, isAbsolute_iff, hseg, decide_eq_true_iff]
          constructor
          · rintro ⟨_, -, heq⟩
            exact (List.cons.inj heq).1
          · rintro rfl
            exact ⟨_, fun hnil => hroot ⟨rfl, hnil⟩, rfl⟩
        · rw [Disk.steps, hseg, List.filter_cons, List.filter_cons, hfilter]

/-! ### Walking -/

/-- The place to which a segment leads from a place. -/
def walkStep (place : List Text) (segment : Text) : List Text :=
  if isIdle segment then place
  else if segment = ['.', '.'] then place.dropLast
  else place ++ [segment]

/-- The place to which segments lead from a place, where every directory on the way is there. -/
def walk (place segments : List Text) : List Text := segments.foldl walkStep place

@[simp] lemma walk_nil (place : List Text) : walk place [] = place := rfl

lemma walk_append (place ss ts : List Text) : walk place (ss ++ ts) = walk (walk place ss) ts :=
  List.foldl_append

lemma walk_concat (place ss : List Text) (s : Text) :
    walk place (ss ++ [s]) = walkStep (walk place ss) s := by
  rw [walk_append]
  rfl

lemma walkStep_of_isName {place : List Text} {n : Text} (h : IsName n) :
    walkStep place n = place ++ [n] := by
  simp [walkStep, h.not_idle, h.ne_up]

lemma walk_of_isName {place names : List Text} (h : ∀ n ∈ names, IsName n) :
    walk place names = place ++ names := by
  induction names using List.reverseRecOn with
  | nil => simp
  | append_singleton ns n ih =>
      rw [walk_concat, ih fun m hm => h m (by simp [hm]), walkStep_of_isName (h n (by simp)),
        List.append_assoc]

end Path

end TemplateGuards
