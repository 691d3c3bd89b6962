import Mathlib.Tactic.Common
import TemplateGuards.Directive.Compile

/-!
What the pairing of markers can do, said once: the outcomes of reading an opener's arguments, of
judging its nesting, of admitting one marker and of admitting them all.

* `Arguments.exists_parse_iff`: an argument text can be read exactly when no piece is empty;
* `Nesting.exists_judge_iff`: only a denied nesting is refused;
* `Marker.admit_opener_eq_ok_iff`, `Marker.admit_ender_eq_ok_iff`: what one marker does to the
  openers that wait;
* `Pairing.ofMarked_nil_eq_ok_iff`, `Pairing.ofMarked_cons_eq_ok_iff`: the pairing, marker by
  marker;
* `compile_eq_ok_iff`, `compile_of_ofText_eq_ok`: what a compiled template is.
-/

namespace TemplateGuards

/-- A sequence of two steps succeeds exactly when both do. -/
lemma bind_eq_ok_iff {ε α β : Type} {x : Except ε α} {f : α → Except ε β} {b : β} :
    x >>= f = .ok b ↔ ∃ a, x = .ok a ∧ f a = .ok b := by
  cases x with
  | error e => simp [bind, Except.bind]
  | ok a => simp [bind, Except.bind]

/-- It fails as the first step does, or the second after the first succeeds. -/
lemma bind_eq_error_iff {ε α β : Type} {x : Except ε α} {f : α → Except ε β} {e : ε} :
    x >>= f = .error e ↔ x = .error e ∨ ∃ a, x = .ok a ∧ f a = .error e := by
  cases x with
  | error e' => simp [bind, Except.bind]
  | ok a => simp [bind, Except.bind]

/-! ### Reading arguments -/

lemma Arguments.parse_eq_ok_iff {args : Text} {a : Arguments} :
    Arguments.parse args = .ok a ↔
      [] ∉ splitArguments args ∧ a = ofPieces (splitArguments args) := by
  rw [Arguments.parse]
  cases h : (splitArguments args).findIdx? List.isEmpty with
  | some index =>
      obtain ⟨hlt, hempty, -⟩ := List.findIdx?_eq_some_iff_getElem.mp h
      have hmem : [] ∈ splitArguments args := by
        have := List.getElem_mem hlt
        rwa [List.isEmpty_iff.mp hempty] at this
      simp [hmem]
  | none =>
      have hnone : [] ∉ splitArguments args := by
        intro hmem
        have := List.findIdx?_eq_none_iff.mp h [] hmem
        simp at this
      simp [hnone, eq_comm]

/-- An argument text can be read exactly when no piece is empty. -/
lemma Arguments.exists_parse_iff {args : Text} :
    (∃ a, Arguments.parse args = .ok a) ↔ [] ∉ splitArguments args := by
  simp [Arguments.parse_eq_ok_iff]

@[simp] lemma readArguments_eq_ok_iff {kind : Kind} {args : Text} {position : Position}
    {a : Arguments} :
    readArguments kind args position = .ok a ↔ Arguments.parse args = .ok a := by
  rw [readArguments]
  split <;> simp_all

/-! ### Judging a nesting -/

lemma enclosing?_eq_none_iff {kind : Kind} {waiting : List Waiting} :
    enclosing? kind waiting = none ↔ kind ∉ waiting.map (·.kind) := by
  simp [enclosing?]

/-- Only a denied nesting is refused. -/
lemma Nesting.exists_judge_iff {nesting : Nesting} {kind : Kind} {position : Position}
    {waiting : List Waiting} :
    (∃ ns, nesting.judge kind position waiting = .ok ns) ↔
      (nesting = .deny → kind ∉ waiting.map (·.kind)) := by
  rw [← enclosing?_eq_none_iff]
  cases h : enclosing? kind waiting <;> cases nesting <;> simp [Nesting.judge, h]

@[simp] lemma Nesting.judge_allow (kind : Kind) (position : Position) (waiting : List Waiting) :
    Nesting.allow.judge kind position waiting = .ok [] := by
  cases h : enclosing? kind waiting <;> simp [Nesting.judge, h]

/-! ### Admitting markers -/

lemma Marker.admit_opener_eq_ok_iff {nesting : Nesting} {waiting waiting' : List Waiting}
    {kind : Kind} {args : Text} {place : Place} {piece : Piece} {ns : List Nested} :
    Marker.admit nesting waiting (.opener kind args place) = .ok (piece, waiting', ns) ↔
      ∃ a, Arguments.parse args = .ok a ∧ nesting.judge kind place.position waiting = .ok ns ∧
        piece = .opens kind a ∧ waiting' = ⟨kind, place.position⟩ :: waiting := by
  unfold Marker.admit
  simp only [bind_eq_ok_iff, readArguments_eq_ok_iff, pure, Except.pure,
    Except.ok.injEq, Prod.mk.injEq]
  constructor
  · rintro ⟨a, ha, ns', hns, rfl, rfl, rfl⟩
    exact ⟨a, ha, hns, rfl, rfl⟩
  · rintro ⟨a, ha, hns, rfl, rfl⟩
    exact ⟨a, ha, ns, hns, rfl, rfl, rfl⟩

lemma Marker.admit_ender_eq_ok_iff {nesting : Nesting} {waiting waiting' : List Waiting}
    {kind : Kind} {place : Place} {piece : Piece} {ns : List Nested} :
    Marker.admit nesting waiting (.ender kind place) = .ok (piece, waiting', ns) ↔
      ∃ inner, waiting = inner :: waiting' ∧ inner.kind = kind ∧ piece = .closes ∧ ns = [] := by
  unfold Marker.admit
  cases waiting with
  | nil => simp
  | cons inner outer =>
      by_cases h : inner.kind = kind
      · simp only [h, if_true, Except.ok.injEq, Prod.mk.injEq, List.cons.injEq]
        constructor
        · rintro ⟨rfl, rfl, rfl⟩
          exact ⟨inner, ⟨rfl, rfl⟩, h, rfl, rfl⟩
        · rintro ⟨_, ⟨rfl, rfl⟩, -, rfl, rfl⟩
          exact ⟨rfl, rfl, rfl⟩
      · simp [h]

namespace Pairing

lemma ofMarked_nil_eq_ok_iff {nesting : Nesting} {tail : Text} {waiting : List Waiting}
    {p : Pairing} :
    ofMarked nesting tail waiting [] = .ok p ↔ waiting = [] ∧ p = ⟨[.text tail], []⟩ := by
  cases waiting with
  | nil => simp [ofMarked, eq_comm]
  | cons inner outer => simp [ofMarked]

lemma ofMarked_cons_eq_ok_iff {nesting : Nesting} {tail : Text} {waiting : List Waiting}
    {m : Marked} {ms : List Marked} {p : Pairing} :
    ofMarked nesting tail waiting (m :: ms) = .ok p ↔
      ∃ piece waiting' ns rest, Marker.admit nesting waiting m.marker = .ok (piece, waiting', ns) ∧
        ofMarked nesting tail waiting' ms = .ok rest ∧
        p = ⟨.text m.gap :: piece :: rest.pieces, ns ++ rest.warnings⟩ := by
  simp only [ofMarked, bind_eq_ok_iff, pure, Except.pure, Except.ok.injEq, Prod.exists]
  constructor
  · rintro ⟨piece, waiting', ns, hm, rest, hrest, rfl⟩
    exact ⟨piece, waiting', ns, rest, hm, hrest, rfl⟩
  · rintro ⟨piece, waiting', ns, rest, hm, hrest, rfl⟩
    exact ⟨piece, waiting', ns, hm, rest, hrest, rfl⟩

section Cons

variable {nesting : Nesting} {waiting waiting' : List Waiting} {m : Marked} {piece : Piece}
  {ns : List Nested} {f : Fault}

/-- A marker that is refused ends the pairing. -/
lemma ofMarked_cons_of_error (h : m.marker.admit nesting waiting = .error f) (tail : Text)
    (ms : List Marked) : ofMarked nesting tail waiting (m :: ms) = .error f := by
  rw [ofMarked, h]
  rfl

/-- A marker that is admitted goes in front of the pairing of the others. -/
lemma ofMarked_cons_of_ok (h : m.marker.admit nesting waiting = .ok (piece, waiting', ns))
    (tail : Text) (ms : List Marked) :
    ofMarked nesting tail waiting (m :: ms) = (ofMarked nesting tail waiting' ms).map
      fun rest => ⟨.text m.gap :: piece :: rest.pieces, ns ++ rest.warnings⟩ := by
  simp only [ofMarked, h, bind, Except.bind]
  cases ofMarked nesting tail waiting' ms <;> rfl

end Cons

end Pairing

/-! ### Compiling -/

/-- A template without markers stays as it is; any other is compiled through its pairing. -/
lemma compile_eq_ok_iff {d : Dialect} {nesting : Nesting} {source : Text} {c : Compiled} :
    compile d nesting source = .ok c ↔
      ∃ o, Outline.ofText source = .ok o ∧
        (o.marked = [] ∧ c = .unchanged source ∨
          o.marked ≠ [] ∧ ∃ p, Pairing.ofOutline nesting o = .ok p ∧
            c = ⟨d.preamble ++ d.render p.pieces, p.warnings⟩) := by
  simp only [compile, bind_eq_ok_iff]
  refine exists_congr fun o => and_congr_right fun _ => ?_
  by_cases h : o.marked = []
  · simp [h, pure, Except.pure, eq_comm]
  · simp only [h, List.isEmpty_iff, if_false, bind_eq_ok_iff, pure, Except.pure, Except.ok.injEq,
      false_and, false_or, ne_eq, not_false_eq_true, true_and]
    exact exists_congr fun p => and_congr_right fun _ => eq_comm

/-- A template that cannot be outlined is not compiled. -/
lemma compile_of_ofText_eq_error {source : Text} {f : Fault} (h : Outline.ofText source = .error f)
    (d : Dialect) (nesting : Nesting) : compile d nesting source = .error f := by
  rw [compile, h]
  rfl

/-- Any other is compiled as its outline is paired, with the preamble where there are markers. -/
lemma compile_of_ofText_eq_ok {source : Text} {o : Outline} (h : Outline.ofText source = .ok o)
    (d : Dialect) (nesting : Nesting) :
    compile d nesting source = (Pairing.ofOutline nesting o).map fun p =>
      ⟨(if o.markers = [] then [] else d.preamble) ++ d.render p.pieces, p.warnings⟩ := by
  by_cases hnil : o.marked = []
  · have htail : o.tail = source := by simpa [Outline.source, hnil] using Outline.source_ofText h
    simp [compile, h, hnil, bind, Except.bind, Pairing.ofOutline, Pairing.ofMarked, Except.map,
      Dialect.renderPiece, htail, Compiled.unchanged, pure, Except.pure]
  · simp only [compile, h, bind, Except.bind, List.isEmpty_iff, hnil, Outline.markers_eq_nil_iff,
      if_false]
    cases Pairing.ofOutline nesting o <;> rfl

/-- A compiled template has an outline that pairs up. -/
lemma exists_pairing_of_compile_eq_ok {d : Dialect} {nesting : Nesting} {s : Text} {c : Compiled}
    (h : compile d nesting s = .ok c) :
    ∃ o p, Outline.ofText s = .ok o ∧ Pairing.ofOutline nesting o = .ok p ∧
      c = ⟨(if o.markers = [] then [] else d.preamble) ++ d.render p.pieces, p.warnings⟩ := by
  obtain ⟨o, ho, -⟩ := compile_eq_ok_iff.mp h
  rw [compile_of_ofText_eq_ok ho] at h
  cases hp : Pairing.ofOutline nesting o with
  | error f => simp [hp, Except.map] at h
  | ok p => exact ⟨o, p, ho, hp, by simpa [hp, Except.map] using h.symm⟩

end TemplateGuards
