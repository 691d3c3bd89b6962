import TemplateGuards.Proofs.ReportNames

/-!
Reports that would be written to one file.  The first report whose destination is that of an
earlier one is refused, together with that earlier report, which is the only one.

* `Report.Collides`: two reports with one destination;
* `FirstCollision`: the first report that collides with an earlier one;
* `FirstCollision.unique`: a list of reports has at most one first collision;
* `distinctFrom_eq_error`: what the check refuses, behind reports that have passed;
* `distinct_iff`: when the check passes, and what it refuses.
-/

namespace TemplateGuards

open TemplateGuards.Path

variable {outDir : Text} {reports earlier : List Report} {e r : Report} {i j : Nat}

/-! ### Collisions -/

/-- Both reports are written, and to one file as far as their paths tell. -/
structure Report.Collides (outDir : Text) (e r : Report) : Prop where
  first : e.relativePath ≠ inputName
  second : r.relativePath ≠ inputName
  components : components (join outDir e.relativePath) = components (join outDir r.relativePath)

namespace Report

lemma Collides.symm (h : e.Collides outDir r) : r.Collides outDir e :=
  ⟨h.second, h.first, h.components.symm⟩

/-- Two reports that collide with a third collide with one another. -/
lemma Collides.trans {e' : Report} (h : e.Collides outDir r) (h' : e'.Collides outDir r) :
    e.Collides outDir e' :=
  ⟨h.first, h'.first, h.components.trans h'.components.symm⟩

lemma isInput_iff : r.isInput = true ↔ r.relativePath = inputName := by
  simp [isInput]

end Report

/-- The rival that the check finds for a report, if the report is written at all. -/
lemma mem_and_collides_of_rival? {found : Report}
    (h : (if r.isInput then none else rival? outDir earlier r) = some found) :
    found ∈ earlier ∧ found.Collides outDir r := by
  split_ifs at h with hinput
  obtain ⟨hfound, hmem⟩ := And.intro (List.find?_some h) (List.mem_of_find?_eq_some h)
  simp only [Bool.and_eq_true, Bool.not_eq_true', ← Bool.not_eq_true, Report.isInput_iff,
    beq_iff_eq] at hfound
  exact ⟨hmem, hfound.1, mt Report.isInput_iff.mpr hinput, hfound.2⟩

lemma not_collides_of_rival?_eq_none
    (h : (if r.isInput then none else rival? outDir earlier r) = none) :
    ∀ e ∈ earlier, ¬ e.Collides outDir r := by
  intro e he hcollides
  rw [if_neg (mt Report.isInput_iff.mp hcollides.second), rival?_eq_none_iff] at h
  have hwritten : e ∈ written earlier :=
    List.mem_filter.mpr ⟨he, by simpa [Report.isInput] using hcollides.first⟩
  exact h e hwritten hcollides.components

/-! ### The first collision -/

/-- The report at `j` is the first that collides with an earlier one, which is that at `i`. -/
structure FirstCollision (outDir : Text) (reports : List Report) (i j : Nat) (e r : Report) :
    Prop where
  lt : i < j
  earlier : reports[i]? = some e
  later : reports[j]? = some r
  collides : e.Collides outDir r
  /-- No other report before `j` collides with that at `j`. -/
  only : ∀ i' e', i' < j → reports[i']? = some e' → e'.Collides outDir r → i' = i
  /-- No report before that at `j` collides with an earlier one. -/
  least : ∀ i' j' e' r', i' < j' → j' < j → reports[i']? = some e' → reports[j']? = some r' →
    ¬ e'.Collides outDir r'

/-- A list of reports has at most one first collision. -/
lemma FirstCollision.unique {i' j' : Nat} {e' r' : Report}
    (h : FirstCollision outDir reports i j e r) (h' : FirstCollision outDir reports i' j' e' r') :
    e' = e ∧ r' = r := by
  have hj : j' = j := by
    rcases Nat.lt_trichotomy j' j with hlt | heq | hlt
    · exact absurd h'.collides (h.least i' j' e' r' h'.lt hlt h'.earlier h'.later)
    · exact heq
    · exact absurd h.collides (h'.least i j e r h.lt hlt h.earlier h.later)
  subst hj
  obtain rfl : r' = r := Option.some.inj (h'.later.symm.trans h.later)
  obtain rfl : i' = i := h.only i' e' h'.lt h'.earlier h'.collides
  exact ⟨Option.some.inj (h'.earlier.symm.trans h.earlier), rfl⟩

/-- A report that collides with one of those before it, where these do not collide. -/
lemma exists_firstCollision (rest : List Report)
    (hfree : earlier.Pairwise fun a b => ¬ a.Collides outDir b) (he : e ∈ earlier)
    (hcollides : e.Collides outDir r) :
    ∃ i, FirstCollision outDir (earlier ++ r :: rest) i earlier.length e r := by
  obtain ⟨i, hi⟩ := List.mem_iff_getElem?.mp he
  have hlt : i < earlier.length := (List.getElem?_eq_some_iff.mp hi).1
  have hbefore : ∀ {n : Nat}, n < earlier.length → (earlier ++ r :: rest)[n]? = earlier[n]? :=
    fun hn => List.getElem?_append_left hn
  -- two reports before `r`, said by their positions
  have hapart : ∀ {m n : Nat} {a b : Report}, m < n → earlier[m]? = some a →
      earlier[n]? = some b → ¬ a.Collides outDir b := by
    intro m n a b hmn ha hb
    obtain ⟨hm, rfl⟩ := List.getElem?_eq_some_iff.mp ha
    obtain ⟨hn, rfl⟩ := List.getElem?_eq_some_iff.mp hb
    exact List.pairwise_iff_getElem.mp hfree m n hm hn hmn
  refine ⟨i, hlt, (hbefore hlt).trans hi, by simp, hcollides, ?_, ?_⟩
  · intro i' e' hi' he' hcollides'
    rw [hbefore hi'] at he'
    rcases Nat.lt_trichotomy i' i with hii | heq | hii
    · exact absurd (hcollides'.trans hcollides) (hapart hii he' hi)
    · exact heq
    · exact absurd (hcollides.trans hcollides') (hapart hii hi he')
  · intro i' j' e' r' hij hj he' hr'
    rw [hbefore (Nat.lt_trans hij hj)] at he'
    rw [hbefore hj] at hr'
    exact hapart hij he' hr'

/-! ### The check -/

/-- **What the check refuses** is the first collision, behind reports that have passed. -/
lemma distinctFrom_eq_error {c : Collision}
    (hfree : earlier.Pairwise fun a b => ¬ a.Collides outDir b)
    (h : distinctFrom outDir earlier reports = .error c) :
    ∃ i j e r, FirstCollision outDir (earlier ++ reports) i j e r ∧
      c = ⟨e.path, r.path, join outDir r.relativePath⟩ := by
  induction reports generalizing earlier with
  | nil => simp [distinctFrom] at h
  | cons r rest ih =>
      rw [distinctFrom] at h
      split at h
      · next e hrival =>
          obtain ⟨hmem, hcollides⟩ := mem_and_collides_of_rival? hrival
          obtain ⟨i, hfirst⟩ := exists_firstCollision rest hfree hmem hcollides
          exact ⟨i, _, e, r, hfirst, (Except.error.inj h).symm⟩
      · next hrival =>
          have hlonger : (earlier ++ [r]).Pairwise fun a b => ¬ a.Collides outDir b :=
            List.pairwise_append.mpr ⟨hfree, List.pairwise_singleton _ _, fun e he r' hr' =>
              List.mem_singleton.mp hr' ▸ not_collides_of_rival?_eq_none hrival e he⟩
          simpa using ih hlonger h

lemma distinct_eq_error {c : Collision} (h : distinct outDir reports = .error c) :
    ∃ i j e r, FirstCollision outDir reports i j e r ∧
      c = ⟨e.path, r.path, join outDir r.relativePath⟩ :=
  distinctFrom_eq_error .nil h

/-- The check passes when no report collides with another. -/
lemma distinct_eq_ok_iff_apart :
    distinct outDir reports = .ok () ↔ ∀ (i j : Nat) (e r : Report), i ≠ j →
      reports[i]? = some e → reports[j]? = some r → ¬ e.Collides outDir r := by
  have hpairs : distinct outDir reports = .ok () ↔
      reports.Pairwise fun a b => ¬ a.Collides outDir b := by
    rw [distinct_eq_ok_iff, written, List.pairwise_filter]
    refine List.Pairwise.iff fun a b => ?_
    simp only [Bool.not_eq_true', ← Bool.not_eq_true, Report.isInput_iff]
    exact ⟨fun h hcollides => h hcollides.first hcollides.second hcollides.components,
      fun h ha hb hcomponents => h ⟨ha, hb, hcomponents⟩⟩
  rw [hpairs, List.pairwise_iff_getElem]
  constructor
  · intro h i j e r hij he hr
    obtain ⟨hi, rfl⟩ := List.getElem?_eq_some_iff.mp he
    obtain ⟨hj, rfl⟩ := List.getElem?_eq_some_iff.mp hr
    rcases Nat.lt_or_gt_of_ne hij with hlt | hgt
    · exact h i j hi hj hlt
    · exact fun hcollides => h j i hj hi hgt hcollides.symm
  · intro h i j hi hj hlt
    exact h i j _ _ (Nat.ne_of_lt hlt) (List.getElem?_eq_getElem hi) (List.getElem?_eq_getElem hj)

/-- **Reports that would be written to one file.**  The check passes exactly when no two reports
that are written have destinations with the same components; else it names the first report whose
destination is an earlier one's, that earlier report, of which there is one only, and the
destination.  Idle segments do not make paths differ, and `..` is a component like any other. -/
theorem distinct_iff (outDir : Text) (reports : List Report) :
    (distinct outDir reports = .ok () ↔ ∀ (i j : Nat) (e r : Report), i ≠ j →
      reports[i]? = some e → reports[j]? = some r → ¬ e.Collides outDir r) ∧
    (∀ c, distinct outDir reports = .error c ↔ ∃ i j e r,
      FirstCollision outDir reports i j e r ∧
        c = ⟨e.path, r.path, join outDir r.relativePath⟩) ∧
    (∀ s t : Text, components (s ++ '/' :: '/' :: t) = components (s ++ '/' :: t) ∧
      components (s ++ '/' :: '.' :: '/' :: t) = components (s ++ '/' :: t) ∧
      components (s ++ ['/', '.', '.']) = components (s ++ ['/']) ++ [.up]) := by
  refine ⟨distinct_eq_ok_iff_apart, fun c => ⟨distinct_eq_error, ?_⟩, fun s t => ⟨?_, ?_, ?_⟩⟩
  · rintro ⟨i, j, e, r, hfirst, rfl⟩
    cases hdistinct : distinct outDir reports with
    | ok _ =>
        exact absurd hfirst.collides (distinct_eq_ok_iff_apart.mp hdistinct i j e r
          (Nat.ne_of_lt hfirst.lt) hfirst.earlier hfirst.later)
    | error c' =>
        obtain ⟨i', j', e', r', hfirst', rfl⟩ := distinct_eq_error hdistinct
        obtain ⟨rfl, rfl⟩ := hfirst.unique hfirst'
        rfl
  · exact (components_append s (separator :: t)).trans (components_append s t).symm
  · exact (components_append s ('.' :: separator :: t)).trans (components_append s t).symm
  · exact components_append s ['.', '.']

/-- Spelled in another way, skipped, and first of two that collide. -/
example :
    let report (relative : Text) : Report := ⟨"p/" ++ relative, relative, none, false, []⟩
    distinct "out" [report "x/y", report "-", report "-", report "x/../y", report "x//./y",
      report "x/y"] = .error ⟨"p/x/y", "p/x//./y", "out/x//./y"⟩ := by
  decide +kernel

end TemplateGuards
