import TemplateGuards.Proofs.Unmatched

/-!
The fault for which a template is refused.  It is the scan's, or that of the first marker with
which the markers so far cannot be continued to a sequence that a template may have, or that of
the most recent opener left unmatched.

* `Admissible`, `Continuable`: the sequences of markers that a template may have, and those that
  can be continued to one;
* `FaultAt`: the fault of a marker, from the unmatched openers before it;
* `exists_admits_iff`: the run of the pairing goes over the continuable sequences;
* `Marker.admit_eq_error_iff`, `Pairing.ofMarked_eq_error_iff`: the fault of one marker, and of a
  run;
* `compile_eq_error_iff`: the fault of a template.
-/

namespace TemplateGuards

/-! ### Sequences of markers -/

/-- The sequences of markers that a template may have: no piece of the arguments is empty, every
opener has its end marker and, where nesting is denied, no block holds an opener of its kind. -/
structure Admissible (nesting : Nesting) (ms : List Marker) : Prop where
  readable : ∀ kind args place, .opener kind args place ∈ ms → [] ∉ splitArguments args
  balanced : Balanced (ms.map Marker.tag)
  unnested : nesting = .deny → SelfNestingFree (ms.map Marker.tag)

/-- Can the sequence be continued to one that a template may have? -/
def Continuable (nesting : Nesting) (ms : List Marker) : Prop :=
  ∃ after, Admissible nesting (ms ++ after)

/-- What a template may have is what a run goes over without an opener left. -/
lemma admissible_iff {nesting : Nesting} {ms : List Marker} :
    Admissible nesting ms ↔ ∃ ns, Admits nesting [] ms [] ns := by
  have hrun : (∃ p, Pairing.ofMarked nesting [] [] (ms.map (Marked.mk [])) = .ok p) ↔
      ∃ ns, Admits nesting [] ms [] ns := by
    have hadmits := fun ns => @Pairing.exists_ofMarked_iff_admits nesting [] [] (ms.map (.mk [])) ns
    simp only [List.map_map, Function.comp_def, List.map_id'] at hadmits
    simp only [← hadmits]
    constructor
    · rintro ⟨p, hp⟩
      exact ⟨p.warnings, p, hp, rfl⟩
    · rintro ⟨_, p, hp, -⟩
      exact ⟨p, hp⟩
  rw [← hrun, Pairing.exists_ofMarked_iff]
  simp only [List.map_map, Function.comp_def, List.map_id', Arguments.exists_parse_iff,
    List.map_nil, Nesting.accepts_nil_iff]
  constructor
  · exact fun h => ⟨h.readable, h.balanced, h.unnested⟩
  · rintro ⟨hread, hbal, hfree⟩
    exact ⟨hread, hbal, hfree⟩

/-- **The run goes over the continuable sequences**: end markers continue any run. -/
lemma exists_admits_iff {nesting : Nesting} {ms : List Marker} :
    (∃ waiting ns, Admits nesting [] ms waiting ns) ↔ Continuable nesting ms := by
  constructor
  · rintro ⟨waiting, ns, h⟩
    obtain ⟨ends, hends⟩ := Admits.exists_ends nesting waiting
    exact ⟨ends, admissible_iff.mpr ⟨_, h.append hends⟩⟩
  · rintro ⟨after, h⟩
    obtain ⟨ns, hns⟩ := admissible_iff.mp h
    obtain ⟨waiting, ns₁, -, h₁, -, -⟩ := hns.of_append
    exact ⟨waiting, ns₁, h₁⟩

/-! ### The fault of one marker -/

/-- Is the piece with that index, counted from 0, the first that is empty? -/
def FirstEmpty (args : Text) (i : Nat) : Prop :=
  (splitArguments args)[i]? = some [] ∧ ∀ j < i, (splitArguments args)[j]? ≠ some []

/-- **The fault of a marker behind `before`.**  An empty piece comes before a denied nesting, whose
outer opener is the most recent one unmatched of the kind; an end marker is judged by the most
recent opener unmatched. -/
inductive FaultAt (nesting : Nesting) (before : List Marker) : Marker → Fault → Prop
  | emptyPolicy {kind : Kind} {args : Text} {place : Place} (h : FirstEmpty args 0) :
      FaultAt nesting before (.opener kind args place) (.emptyPolicy kind place.position)
  | emptyArgument {kind : Kind} {args : Text} {place : Place} {i : Nat} (hi : i ≠ 0)
      (h : FirstEmpty args i) :
      FaultAt nesting before (.opener kind args place) (.emptyArgument kind i place.position)
  | nested {kind : Kind} {args : Text} {place : Place} {outer : Waiting}
      (hargs : [] ∉ splitArguments args) (hdeny : nesting = .deny)
      (h : enclosing? kind (unmatched before) = some outer) :
      FaultAt nesting before (.opener kind args place)
        (.nested ⟨kind, place.position, outer.position⟩)
  | unexpectedEnd {kind : Kind} {place : Place} (h : unmatched before = []) :
      FaultAt nesting before (.ender kind place) (.unexpectedEnd kind place.position)
  | mismatchedEnd {kind : Kind} {place : Place} {inner : Waiting} {outer : List Waiting}
      (h : unmatched before = inner :: outer) (hkind : inner.kind ≠ kind) :
      FaultAt nesting before (.ender kind place)
        (.mismatchedEnd inner.kind kind inner.position place.position)

lemma FirstEmpty.unique {args : Text} {i j : Nat} (hi : FirstEmpty args i)
    (hj : FirstEmpty args j) : i = j := by
  rcases Nat.lt_trichotomy i j with h | h | h
  · exact absurd hi.1 (hj.2 i h)
  · exact h
  · exact absurd hj.1 (hi.2 j h)

/-- Reading arguments fails for the first empty piece. -/
lemma Arguments.parse_eq_error_iff {args : Text} {i : Nat} :
    Arguments.parse args = .error i ↔ FirstEmpty args i := by
  rw [Arguments.parse]
  cases h : (splitArguments args).findIdx? List.isEmpty with
  | none =>
      have hnone := List.findIdx?_eq_none_iff.mp h
      simp only [reduceCtorEq, false_iff]
      intro hi
      exact absurd (hnone [] (List.mem_of_getElem? hi.1)) (by simp)
  | some k =>
      obtain ⟨hlt, hempty, hfirst⟩ := List.findIdx?_eq_some_iff_getElem.mp h
      have hk : FirstEmpty args k := by
        refine ⟨?_, fun j hj => ?_⟩
        · rw [List.getElem?_eq_getElem hlt, List.isEmpty_iff.mp hempty]
        · rw [List.getElem?_eq_getElem (Nat.lt_trans hj hlt), ne_eq, Option.some.injEq]
          exact fun hnil => hfirst j hj (List.isEmpty_iff.mpr hnil)
      simp only [Except.error.injEq]
      exact ⟨fun hki => hki ▸ hk, hk.unique⟩

lemma readArguments_eq_error_iff {kind : Kind} {args : Text} {position : Position} {f : Fault} :
    readArguments kind args position = .error f ↔
      FirstEmpty args 0 ∧ f = .emptyPolicy kind position ∨
        ∃ i, i ≠ 0 ∧ FirstEmpty args i ∧ f = .emptyArgument kind i position := by
  simp only [← Arguments.parse_eq_error_iff]
  rw [readArguments]
  cases h : Arguments.parse args with
  | ok a => simp
  | error i => cases i <;> simp [eq_comm]

/-- Only a denied nesting is refused, for the innermost opener of the kind. -/
lemma Nesting.judge_eq_error_iff {nesting : Nesting} {kind : Kind} {position : Position}
    {waiting : List Waiting} {f : Fault} :
    nesting.judge kind position waiting = .error f ↔
      nesting = .deny ∧ ∃ outer, enclosing? kind waiting = some outer ∧
        f = .nested ⟨kind, position, outer.position⟩ := by
  cases h : enclosing? kind waiting <;> cases nesting <;> simp [Nesting.judge, h, eq_comm]

lemma Marker.admit_opener_eq_error_iff {nesting : Nesting} {waiting : List Waiting} {kind : Kind}
    {args : Text} {place : Place} {f : Fault} :
    Marker.admit nesting waiting (.opener kind args place) = .error f ↔
      readArguments kind args place.position = .error f ∨
        [] ∉ splitArguments args ∧ nesting.judge kind place.position waiting = .error f := by
  unfold Marker.admit
  simp [bind_eq_error_iff, pure, Except.pure, Arguments.exists_parse_iff]

lemma Marker.admit_ender_eq_error_iff {nesting : Nesting} {waiting : List Waiting} {kind : Kind}
    {place : Place} {f : Fault} :
    Marker.admit nesting waiting (.ender kind place) = .error f ↔
      waiting = [] ∧ f = .unexpectedEnd kind place.position ∨
        ∃ inner outer, waiting = inner :: outer ∧ inner.kind ≠ kind ∧
          f = .mismatchedEnd inner.kind kind inner.position place.position := by
  unfold Marker.admit
  cases waiting with
  | nil => simp [eq_comm]
  | cons inner outer =>
      by_cases h : inner.kind = kind
      · simp [h]
      · simp [h, Ne.symm h, eq_comm]

/-- **The fault of one marker**, where the openers that wait are the unmatched ones. -/
lemma Marker.admit_eq_error_iff {nesting : Nesting} {before : List Marker} {m : Marker}
    {f : Fault} : m.admit nesting (unmatched before) = .error f ↔ FaultAt nesting before m f := by
  cases m with
  | opener kind args place =>
      rw [Marker.admit_opener_eq_error_iff, readArguments_eq_error_iff, Nesting.judge_eq_error_iff]
      constructor
      · rintro ((⟨h, rfl⟩ | ⟨i, hi, h, rfl⟩) | ⟨hargs, hdeny, outer, h, rfl⟩)
        · exact .emptyPolicy h
        · exact .emptyArgument hi h
        · exact .nested hargs hdeny h
      · intro h
        cases h with
        | emptyPolicy h => exact Or.inl (Or.inl ⟨h, rfl⟩)
        | emptyArgument hi h => exact Or.inl (Or.inr ⟨_, hi, h, rfl⟩)
        | nested hargs hdeny h => exact Or.inr ⟨hargs, hdeny, _, h, rfl⟩
  | ender kind place =>
      rw [Marker.admit_ender_eq_error_iff]
      constructor
      · rintro (⟨h, rfl⟩ | ⟨inner, outer, h, hkind, rfl⟩)
        · exact .unexpectedEnd h
        · exact .mismatchedEnd h hkind
      · intro h
        cases h with
        | unexpectedEnd h => exact Or.inl ⟨h, rfl⟩
        | mismatchedEnd h hkind => exact Or.inr ⟨_, _, h, hkind, rfl⟩

/-! ### The fault of a run -/

/-- A pairing fails behind a run as it fails from there. -/
lemma Admits.ofMarked_eq_error {nesting : Nesting} {waiting waiting' : List Waiting}
    {ms rest : List Marked} {ns : List Nested} {tail : Text} {f : Fault}
    (h : Admits nesting waiting (ms.map (·.marker)) waiting' ns)
    (hrest : Pairing.ofMarked nesting tail waiting' rest = .error f) :
    Pairing.ofMarked nesting tail waiting (ms ++ rest) = .error f := by
  induction ms generalizing waiting ns with
  | nil =>
      cases h
      exact hrest
  | cons m ms ih =>
      cases h with
      | cons hm h =>
          rw [List.cons_append, Pairing.ofMarked_cons_of_ok hm, ih h]
          rfl

/-- **The fault of a run.**  The pairing fails at the first marker that is refused behind a run
over those before it, or after a run over all markers that leaves an opener waiting. -/
lemma Pairing.ofMarked_eq_error_iff {nesting : Nesting} {tail : Text} {waiting : List Waiting}
    {ms : List Marked} {f : Fault} :
    ofMarked nesting tail waiting ms = .error f ↔
      (∃ before m after waiting' ns, ms.map (·.marker) = before ++ m :: after ∧
        Admits nesting waiting before waiting' ns ∧ m.admit nesting waiting' = .error f) ∨
      ∃ inner outer ns, Admits nesting waiting (ms.map (·.marker)) (inner :: outer) ns ∧
        f = .unclosed inner.kind inner.position := by
  constructor
  · intro h
    induction ms generalizing waiting with
    | nil =>
        cases waiting with
        | nil => cases h
        | cons inner outer =>
            cases h
            exact Or.inr ⟨inner, outer, [], .nil _, rfl⟩
    | cons m ms ih =>
        cases hm : m.marker.admit nesting waiting with
        | error f' =>
            rw [ofMarked_cons_of_error hm] at h
            cases h
            exact Or.inl ⟨[], m.marker, ms.map (·.marker), waiting, [], rfl, .nil waiting, hm⟩
        | ok admitted =>
            obtain ⟨piece, waiting', ns⟩ := admitted
            rw [ofMarked_cons_of_ok hm] at h
            have hrest : ofMarked nesting tail waiting' ms = .error f := by
              cases hr : ofMarked nesting tail waiting' ms with
              | error f' => simpa [hr, Except.map] using h
              | ok rest => simp [hr, Except.map] at h
            rcases ih hrest with
              ⟨before, m', after, waiting'', ns', hms, hrun, hf⟩ | ⟨inner, outer, ns', hrun, hf⟩
            · exact Or.inl ⟨m.marker :: before, m', after, waiting'', _, by simp [hms],
                .cons hm hrun, hf⟩
            · exact Or.inr ⟨inner, outer, _, .cons hm hrun, hf⟩
  · rintro (⟨before, m, after, waiting', ns, hms, hrun, hf⟩ | ⟨inner, outer, ns, hrun, rfl⟩)
    · obtain ⟨ms, rest, rfl, rfl, hrest⟩ := List.map_eq_append_iff.mp hms
      obtain ⟨m, rest, rfl, rfl, -⟩ := List.map_eq_cons_iff.mp hrest
      exact hrun.ofMarked_eq_error (ofMarked_cons_of_error hf tail rest)
    · have hend : ofMarked nesting tail (inner :: outer) [] =
          .error (.unclosed inner.kind inner.position) := rfl
      simpa using hrun.ofMarked_eq_error hend

/-- A marker that is refused behind a run is the first with which the markers cannot be
continued. -/
lemma exists_admits_refused_iff {nesting : Nesting} {before : List Marker} {m : Marker}
    {f : Fault} :
    (∃ waiting ns, Admits nesting [] before waiting ns ∧ m.admit nesting waiting = .error f) ↔
      Continuable nesting before ∧ ¬ Continuable nesting (before ++ [m]) ∧
        FaultAt nesting before m f := by
  constructor
  · rintro ⟨waiting, ns, hrun, hf⟩
    obtain rfl := hrun.unmatched_eq
    refine ⟨exists_admits_iff.mp ⟨_, ns, hrun⟩, fun hcont => ?_, Marker.admit_eq_error_iff.mp hf⟩
    obtain ⟨waiting, ns', hrun'⟩ := exists_admits_iff.mpr hcont
    obtain ⟨mid, _, _, hbefore, hm, -⟩ := hrun'.of_append
    obtain rfl := hbefore.unmatched_eq
    cases hm with
    | cons hm _ =>
        rw [hf] at hm
        cases hm
  · rintro ⟨hcont, -, hfault⟩
    obtain ⟨waiting, ns, hrun⟩ := exists_admits_iff.mpr hcont
    refine ⟨waiting, ns, hrun, ?_⟩
    obtain rfl := hrun.unmatched_eq
    exact Marker.admit_eq_error_iff.mpr hfault

/-- Where a run over all markers leaves openers waiting these are the unmatched ones. -/
lemma exists_admits_waiting_iff {nesting : Nesting} {ms : List Marker} {waiting : List Waiting} :
    (∃ ns, Admits nesting [] ms waiting ns) ↔
      Continuable nesting ms ∧ unmatched ms = waiting := by
  rw [← exists_admits_iff]
  constructor
  · rintro ⟨ns, hrun⟩
    exact ⟨⟨waiting, ns, hrun⟩, hrun.unmatched_eq⟩
  · rintro ⟨⟨waiting', ns, hrun⟩, rfl⟩
    exact ⟨ns, hrun.unmatched_eq ▸ hrun⟩

/-! ### The fault of a template -/

lemma Outline.scan_eq_error {place : Place} {gap s : Text} {f : Fault}
    (h : Outline.scan place gap s = .error f) :
    ∃ kind position, f = .unterminated kind position := by
  fun_induction Outline.scan place gap s with
  | case1 place gap s kind => exact ⟨kind, place.position, by simpa using h.symm⟩
  | case2 place gap s r rest hr _ m hm ih =>
      cases hs : Outline.scan (place.advance r.source) [] rest with
      | error f' => exact ih (by simpa [hs, Except.map] using h)
      | ok o => simp [hs, Except.map] at h
  | case3 place gap s r rest hr _ hm ih => exact ih h
  | case4 place gap => simp at h
  | case5 place gap c cs _ ih => exact ih h

/-- **The fault of a template.**  Where the scan fails it is the scan's, for an opener that nothing
closes.  Else it is the fault of the first marker with which the markers cannot be continued, or
that of the most recent opener unmatched where all markers can be. -/
theorem compile_eq_error_iff (d : Dialect) (nesting : Nesting) (source : Text) (f : Fault) :
    compile d nesting source = .error f ↔
      (Outline.ofText source = .error f ∧ ∃ kind position, f = .unterminated kind position) ∨
      ∃ o, Outline.ofText source = .ok o ∧
        ((∃ before m after, o.markers = before ++ m :: after ∧ Continuable nesting before ∧
            ¬ Continuable nesting (before ++ [m]) ∧ FaultAt nesting before m f) ∨
          Continuable nesting o.markers ∧ ∃ inner outer, unmatched o.markers = inner :: outer ∧
            f = .unclosed inner.kind inner.position) := by
  cases ho : Outline.ofText source with
  | error f' =>
      rw [compile_of_ofText_eq_error ho, Except.error.injEq, Except.error.injEq]
      constructor
      · rintro rfl
        exact Or.inl ⟨rfl, Outline.scan_eq_error ho⟩
      · rintro (⟨h, -⟩ | ⟨o, h, -⟩)
        · exact h
        · cases h
  | ok o =>
      have hcompile : compile d nesting source = .error f ↔
          Pairing.ofMarked nesting o.tail [] o.marked = .error f := by
        rw [compile_of_ofText_eq_ok ho, Pairing.ofOutline]
        cases Pairing.ofMarked nesting o.tail [] o.marked <;> simp [Except.map]
      rw [hcompile, Pairing.ofMarked_eq_error_iff]
      constructor
      · rintro (⟨before, m, after, waiting, ns, hms, hrun, hf⟩ | ⟨inner, outer, ns, hrun, rfl⟩)
        · exact Or.inr ⟨o, rfl, Or.inl ⟨before, m, after, hms,
            exists_admits_refused_iff.mp ⟨waiting, ns, hrun, hf⟩⟩⟩
        · obtain ⟨hcont, hopen⟩ := exists_admits_waiting_iff.mp ⟨ns, hrun⟩
          exact Or.inr ⟨o, rfl, Or.inr ⟨hcont, inner, outer, hopen, rfl⟩⟩
      · rintro (⟨h, -⟩ | ⟨o', ho', h⟩)
        · cases h
        · cases ho'
          rcases h with ⟨before, m, after, hms, hrefused⟩ | ⟨hcont, inner, outer, hopen, rfl⟩
          · obtain ⟨waiting, ns, hrun, hf⟩ := exists_admits_refused_iff.mpr hrefused
            exact Or.inl ⟨before, m, after, waiting, ns, hms, hrun, hf⟩
          · obtain ⟨ns, hrun⟩ := exists_admits_waiting_iff.mpr ⟨hcont, hopen⟩
            exact Or.inr ⟨inner, outer, ns, hrun, rfl⟩

end TemplateGuards
