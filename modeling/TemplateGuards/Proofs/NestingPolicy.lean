import TemplateGuards.Proofs.Unmatched

/-!
The three nesting policies on one template.  The markers that `allow` admits are those that `warn`
admits, and `deny` admits them too as long as none makes a nesting.

* `Marker.nesting?`, `nestings`: the nestings of a sequence of markers, from its unmatched openers;
* `Marker.admit_cases`: one marker under the three policies;
* `Pairing.ofMarked_cases`: all markers under the three policies;
* `compile_nesting_policies`: the three compilations of a template.
-/

namespace TemplateGuards

/-! ### Nestings -/

/-- The nesting that a marker makes when some openers wait: it is an opener, and the innermost of
its kind that waits is around it. -/
def Marker.nesting? (waiting : List Waiting) : Marker → Option Nested
  | opener kind _ place =>
      (enclosing? kind waiting).map fun outer => ⟨kind, place.position, outer.position⟩
  | ender .. => none

/-- The nestings that the markers behind `before` make, in source order: one for each opener
behind an unmatched opener of its own kind. -/
def nestings : List Marker → List Marker → List Nested
  | _, [] => []
  | before, m :: ms => (m.nesting? (unmatched before)).toList ++ nestings (before ++ [m]) ms

/-! ### One marker -/

/-- **One marker under the three policies.**  Either all refuse it for the same fault, or all but
`deny` make the same of it, and `deny` does too unless it makes a nesting. -/
lemma Marker.admit_cases (m : Marker) (waiting : List Waiting) :
    (∃ f, ∀ nesting, m.admit nesting waiting = .error f) ∨
      ∃ piece waiting', m.admit .allow waiting = .ok (piece, waiting', []) ∧
        m.admit .warn waiting = .ok (piece, waiting', (m.nesting? waiting).toList) ∧
        m.admit .deny waiting = match m.nesting? waiting with
          | none => .ok (piece, waiting', [])
          | some n => .error (.nested n) := by
  cases m with
  | opener kind args place =>
      cases ha : readArguments kind args place.position with
      | error f =>
          exact Or.inl ⟨f, fun nesting => by simp [ha, Marker.admit, bind, Except.bind]⟩
      | ok a =>
          refine Or.inr ⟨.opens kind a, ⟨kind, place.position⟩ :: waiting, ?_⟩
          cases henc : enclosing? kind waiting <;>
            simp [ha, henc, Marker.admit, nesting?, Nesting.judge, bind, Except.bind, pure,
              Except.pure]
  | ender kind place =>
      cases waiting with
      | nil => exact Or.inl ⟨_, fun _ => rfl⟩
      | cons inner outer =>
          by_cases hk : inner.kind = kind
          · exact Or.inr ⟨.closes, outer, by simp [hk, Marker.admit, nesting?]⟩
          · exact Or.inl ⟨.mismatchedEnd inner.kind kind inner.position place.position,
              fun _ => by simp [hk, Marker.admit]⟩

/-! ### All markers -/

/-- **All markers under the three policies.**  `allow` and `warn` fail for the same fault, and
`deny` for that fault or the first nesting; or `allow` and `warn` come to the same pieces, and
`deny` does too unless there is a nesting. -/
lemma Pairing.ofMarked_cases {before : List Marker} {waiting : List Waiting}
    (h : Pending before waiting) (tail : Text) (ms : List Marked) :
    (∃ f, ofMarked .allow tail waiting ms = .error f ∧ ofMarked .warn tail waiting ms = .error f ∧
      (ofMarked .deny tail waiting ms = .error f ∨
        ∃ n ns, nestings before (ms.map (·.marker)) = n :: ns ∧
          ofMarked .deny tail waiting ms = .error (.nested n))) ∨
      ∃ pieces, ofMarked .allow tail waiting ms = .ok ⟨pieces, []⟩ ∧
        ofMarked .warn tail waiting ms = .ok ⟨pieces, nestings before (ms.map (·.marker))⟩ ∧
        ofMarked .deny tail waiting ms = match nestings before (ms.map (·.marker)) with
          | [] => .ok ⟨pieces, []⟩
          | n :: _ => .error (.nested n) := by
  induction ms generalizing before waiting with
  | nil =>
      cases waiting with
      | nil => exact Or.inr ⟨[.text tail], rfl, rfl, rfl⟩
      | cons inner outer => exact Or.inl ⟨_, rfl, rfl, Or.inl rfl⟩
  | cons m ms ih =>
      rcases m.marker.admit_cases waiting with ⟨f, hf⟩ | ⟨piece, waiting', hallow, hwarn, hdeny⟩
      · have hfail : ∀ nesting, ofMarked nesting tail waiting (m :: ms) = .error f :=
          fun nesting => ofMarked_cons_of_error (hf nesting) tail ms
        exact Or.inl ⟨f, hfail _, hfail _, Or.inl (hfail _)⟩
      · have hrest := ih (h.step hallow)
        rw [ofMarked_cons_of_ok hallow, ofMarked_cons_of_ok hwarn, List.map_cons, nestings,
          h.unmatched_eq]
        cases hn : m.marker.nesting? waiting with
        | none =>
            -- `deny` goes on with the others
            rw [hn] at hdeny
            rw [ofMarked_cons_of_ok hdeny]
            rcases hrest with ⟨f, ha, hw, hd | ⟨n, ns, hns, hd⟩⟩ | ⟨pieces, ha, hw, hd⟩
            · exact Or.inl ⟨f, by rw [ha]; rfl, by rw [hw]; rfl, Or.inl (by rw [hd]; rfl)⟩
            · exact Or.inl ⟨f, by rw [ha]; rfl, by rw [hw]; rfl,
                Or.inr ⟨n, ns, hns, by rw [hd]; rfl⟩⟩
            · refine Or.inr ⟨.text m.gap :: piece :: pieces, by rw [ha]; rfl, by rw [hw]; rfl, ?_⟩
              rw [hd, Option.toList_none, List.nil_append]
              cases nestings (before ++ [m.marker]) (ms.map (·.marker)) <;> rfl
        | some n =>
            -- `deny` stops here, and the nesting is the first
            rw [hn] at hdeny
            rw [ofMarked_cons_of_error hdeny]
            rcases hrest with ⟨f, ha, hw, -⟩ | ⟨pieces, ha, hw, -⟩
            · exact Or.inl ⟨f, by rw [ha]; rfl, by rw [hw]; rfl, Or.inr ⟨n, _, rfl, rfl⟩⟩
            · exact Or.inr ⟨.text m.gap :: piece :: pieces, by rw [ha]; rfl, by rw [hw]; rfl, rfl⟩

/-! ### The three compilations -/

/-- **The three nesting policies on one template.**  Under `allow` and `warn` it fails for the same
fault, or both give the same text, `allow` without warnings and `warn` with the nestings.  Where
`warn` gives no warning `deny` gives the same text, and where `warn` gives some `deny` fails for
the first.  Where `warn` fails `deny` fails for the same fault or for the first nesting. -/
theorem compile_nesting_policies (d : Dialect) (source : Text) :
    ((∃ f, compile d .allow source = .error f ∧ compile d .warn source = .error f) ∨
      ∃ o text, Outline.ofText source = .ok o ∧ compile d .allow source = .ok ⟨text, []⟩ ∧
        compile d .warn source = .ok ⟨text, nestings [] o.markers⟩) ∧
    (∀ c, compile d .warn source = .ok c →
      (c.warnings = [] → compile d .deny source = .ok ⟨c.text, []⟩) ∧
      ∀ n ns, c.warnings = n :: ns → compile d .deny source = .error (.nested n)) ∧
    ∀ f, compile d .warn source = .error f →
      compile d .deny source = .error f ∨
        ∃ o n ns, Outline.ofText source = .ok o ∧ nestings [] o.markers = n :: ns ∧
          compile d .deny source = .error (.nested n) := by
  cases ho : Outline.ofText source with
  | error f =>
      have hfail : ∀ nesting, compile d nesting source = .error f :=
        compile_of_ofText_eq_error ho d
      simp [hfail]
  | ok o =>
      have hcompile := compile_of_ofText_eq_ok ho d
      rcases Pairing.ofMarked_cases .nil o.tail o.marked with
        ⟨f, hallow, hwarn, hdeny⟩ | ⟨pieces, hallow, hwarn, hdeny⟩
      · have ha : compile d .allow source = .error f := by
          rw [hcompile, Pairing.ofOutline, hallow]
          rfl
        have hw : compile d .warn source = .error f := by
          rw [hcompile, Pairing.ofOutline, hwarn]
          rfl
        refine ⟨Or.inl ⟨f, ha, hw⟩, fun c hc => ?_, fun f' hf' => ?_⟩
        · rw [hw] at hc
          cases hc
        · rw [hw] at hf'
          cases hf'
          rw [hcompile, Pairing.ofOutline]
          rcases hdeny with hd | ⟨n, ns, hns, hd⟩
          · exact Or.inl (by rw [hd]; rfl)
          · exact Or.inr ⟨o, n, ns, rfl, hns, by rw [hd]; rfl⟩
      · obtain ⟨text, htext⟩ : ∃ text, (if o.markers = [] then [] else d.preamble) ++
            d.render pieces = text := ⟨_, rfl⟩
        have ha : compile d .allow source = .ok ⟨text, []⟩ := by
          rw [hcompile, Pairing.ofOutline, hallow, ← htext]
          rfl
        have hw : compile d .warn source = .ok ⟨text, nestings [] o.markers⟩ := by
          rw [hcompile, Pairing.ofOutline, hwarn, ← htext]
          rfl
        refine ⟨Or.inr ⟨o, text, rfl, ha, hw⟩, fun c hc => ?_, fun f' hf' => ?_⟩
        · rw [hw] at hc
          cases hc
          rw [hcompile, Pairing.ofOutline, hdeny, ← htext]
          refine ⟨fun hnil => ?_, fun n ns hns => ?_⟩
          · have hnone : nestings [] (o.marked.map (·.marker)) = [] := hnil
            rw [hnone]
            rfl
          · have hfirst : nestings [] (o.marked.map (·.marker)) = n :: ns := hns
            rw [hfirst]
            rfl
        · rw [hw] at hf'
          cases hf'

/-- The outer opener is the innermost of the kind, past one of the other kind. -/
example : nestings [] [.opener .allows "a" ⟨0, 1, 1⟩, .opener .allows "b" ⟨10, 1, 11⟩,
    .opener .denies "c" ⟨20, 1, 21⟩, .opener .allows "d" ⟨30, 1, 31⟩] =
      [⟨.allows, ⟨1, 11⟩, ⟨1, 1⟩⟩, ⟨.allows, ⟨1, 31⟩, ⟨1, 11⟩⟩] := by
  decide

end TemplateGuards
