import TemplateGuards.Proofs.BlockGrammar

/-!
The openers of a sequence of markers that are not matched in it, said by the grammar of blocks:
an opener is matched by an end marker of its kind with a balanced sequence in between.  They are
what the pairing keeps on its stack.

* `Matched`, `unmatched`: the matched openers, and the list of the unmatched ones;
* `Pending`: a sequence cut at its unmatched openers, which a marker that is admitted keeps
  (`Pending.step`), and from which they are read off (`Pending.unmatched_eq`);
* `Admits`: the run of the pairing over a sequence of markers;
* `Admits.unmatched_eq`: the openers that wait after a run are the unmatched ones;
* `Pairing.exists_ofMarked_iff_admits`: a pairing is a run after which no opener waits.
-/

namespace TemplateGuards

/-! ### The grammar, decided -/

instance Nesting.decidableAccepts (nesting : Nesting) :
    ∀ waiting ts, Decidable (nesting.Accepts waiting ts)
  | waiting, [] => inferInstanceAs (Decidable (waiting = []))
  | waiting, .opener kind :: ts =>
      have := nesting.decidableAccepts (kind :: waiting) ts
      inferInstanceAs
        (Decidable ((nesting = .deny → kind ∉ waiting) ∧ nesting.Accepts (kind :: waiting) ts))
  | [], .ender _ :: _ => isFalse fun ⟨_, h, _⟩ => nomatch h
  | inner :: outer, .ender kind :: ts =>
      have := nesting.decidableAccepts outer ts
      decidable_of_iff (inner = kind ∧ nesting.Accepts outer ts)
        ⟨fun ⟨hk, h⟩ => ⟨outer, by rw [hk], h⟩, fun ⟨_, heq, h⟩ => by
          obtain ⟨rfl, rfl⟩ := List.cons.inj heq
          exact ⟨rfl, h⟩⟩

instance Balanced.decidable : DecidablePred Balanced := fun ts =>
  decidable_of_iff (Nesting.allow.Accepts [] ts) (by simp [Nesting.accepts_nil_iff])

lemma Balanced.append {v w : List Tag} (hv : Balanced v) (hw : Balanced w) :
    Balanced (v ++ w) := by
  induction hv with
  | nil => exact hw
  | @block kind v x hv _ _ ihx =>
      rw [List.cons_append, List.append_assoc, List.cons_append]
      exact .block kind hv ihx

/-! ### Unmatched openers -/

/-- Is an opener of the kind matched by the markers behind it?  Then one of them is an end marker
of its kind with a balanced sequence before it. -/
def Matched (kind : Kind) (after : List Marker) : Prop :=
  ∃ body place rest, after = body ++ .ender kind place :: rest ∧ Balanced (body.map Marker.tag)

/-- Only the places before the end of the sequence have to be tried. -/
lemma matched_iff {kind : Kind} {after : List Marker} :
    Matched kind after ↔ ∃ i, i < after.length ∧
      (after[i]?.map Marker.tag = some (.ender kind) ∧
        Balanced ((after.take i).map Marker.tag)) := by
  constructor
  · rintro ⟨body, place, rest, rfl, hbody⟩
    exact ⟨body.length, by simp, by simp [Marker.tag], by simpa using hbody⟩
  · rintro ⟨i, hi, htag, hbal⟩
    refine ⟨after.take i, ?_⟩
    rw [List.getElem?_eq_getElem hi] at htag
    have hsplit : after = after.take i ++ after[i] :: after.drop (i + 1) := by
      rw [← List.drop_eq_getElem_cons hi, List.take_append_drop]
    cases hm : after[i] with
    | opener k args place => simp [hm, Marker.tag] at htag
    | ender k place =>
        obtain rfl : k = kind := by simpa [hm, Marker.tag] using htag
        exact ⟨place, after.drop (i + 1), hm ▸ hsplit, hbal⟩

instance Matched.decidable (kind : Kind) (after : List Marker) : Decidable (Matched kind after) :=
  decidable_of_iff _ matched_iff.symm

/-- The openers that are not matched by the markers behind them, the most recent first. -/
def unmatched : List Marker → List Waiting
  | [] => []
  | .opener kind _ place :: after =>
      if Matched kind after then unmatched after else unmatched after ++ [⟨kind, place.position⟩]
  | .ender .. :: after => unmatched after

/-- A balanced sequence has no unmatched opener, whatever follows. -/
lemma unmatched_append_of_balanced {ms : List Marker} (h : Balanced (ms.map Marker.tag))
    (after : List Marker) : unmatched (ms ++ after) = unmatched after := by
  generalize hts : ms.map Marker.tag = ts at h
  induction h generalizing ms after with
  | nil => simp_all
  | @block kind v w hv _ ihv ihw =>
      obtain ⟨m, tail, rfl, hm, htail⟩ := List.map_eq_cons_iff.mp hts
      obtain ⟨body, tail', rfl, rfl, hend⟩ := List.map_eq_append_iff.mp htail
      obtain ⟨e, rest, rfl, he, rfl⟩ := List.map_eq_cons_iff.mp hend
      cases m with
      | ender k place => simp [Marker.tag] at hm
      | opener k args place =>
          cases e with
          | opener k' args' place' => simp [Marker.tag] at he
          | ender k' place' =>
              obtain rfl : k = kind := by simpa [Marker.tag] using hm
              obtain rfl : k' = k := by simpa [Marker.tag] using he
              have hmatched : Matched k' (body ++ .ender k' place' :: (rest ++ after)) :=
                ⟨body, place', _, rfl, hv⟩
              rw [List.cons_append, List.append_assoc, List.cons_append, unmatched,
                if_pos hmatched, ihv _ rfl, unmatched, ihw _ rfl]

/-! ### A sequence cut at its unmatched openers -/

/-- The sequence is balanced pieces with the waiting openers between them, the first of these in
front of the last piece. -/
inductive Pending : List Marker → List Waiting → Prop
  | balanced {ms : List Marker} (h : Balanced (ms.map Marker.tag)) : Pending ms []
  | opener {before body : List Marker} {waiting : List Waiting} {kind : Kind} {args : Text}
      {place : Place} (h : Pending before waiting) (hbody : Balanced (body.map Marker.tag)) :
      Pending (before ++ .opener kind args place :: body) (⟨kind, place.position⟩ :: waiting)

namespace Pending

variable {ms : List Marker} {waiting waiting' : List Waiting}

lemma nil : Pending [] [] :=
  .balanced .nil

lemma append (h : Pending ms waiting) {body : List Marker}
    (hbody : Balanced (body.map Marker.tag)) : Pending (ms ++ body) waiting := by
  cases h with
  | balanced h => exact .balanced (by rw [List.map_append]; exact h.append hbody)
  | opener h hlast =>
      rw [List.append_assoc, List.cons_append]
      exact .opener h (by rw [List.map_append]; exact hlast.append hbody)

/-- **One marker.**  An opener starts a new piece, and an end marker joins the last two. -/
lemma step (h : Pending ms waiting) {nesting : Nesting} {m : Marker} {piece : Piece}
    {ns : List Nested} (hm : m.admit nesting waiting = .ok (piece, waiting', ns)) :
    Pending (ms ++ [m]) waiting' := by
  cases m with
  | opener kind args place =>
      obtain ⟨a, -, -, -, rfl⟩ := Marker.admit_opener_eq_ok_iff.mp hm
      exact .opener h .nil
  | ender kind place =>
      obtain ⟨inner, rfl, rfl, -, -⟩ := Marker.admit_ender_eq_ok_iff.mp hm
      cases h with
      | @opener before body _ kind args place' hbefore hbody =>
          have hblock : Balanced ((Marker.opener kind args place' ::
              (body ++ [.ender kind place])).map Marker.tag) := by
            simpa [Marker.tag] using Balanced.block kind hbody .nil
          simpa using hbefore.append hblock

/-- **The unmatched openers** are those at which the sequence is cut. -/
lemma unmatched_append (h : Pending ms waiting) {after : List Marker} {ts : List Tag}
    (hafter : Balanced (after.map Marker.tag ++ ts)) :
    unmatched (ms ++ after) = unmatched after ++ waiting := by
  induction h generalizing after ts with
  | balanced h => rw [unmatched_append_of_balanced h, List.append_nil]
  | @opener before body waiting kind args place h hbody ih =>
      have hrest : Balanced ((body ++ after).map Marker.tag ++ ts) := by
        rw [List.map_append, List.append_assoc]
        exact hbody.append hafter
      have hopener : Balanced ((Marker.opener kind args place :: (body ++ after)).map Marker.tag ++
          (ts ++ [.ender kind])) := by
        simpa [Marker.tag] using Balanced.block kind hrest .nil
      -- an end marker that matched the opener would have nothing to end in the balanced rest
      have hnot : ¬ Matched kind (body ++ after) := by
        rintro ⟨inner, place', rest, heq, hinner⟩
        rw [heq, List.map_append, List.append_assoc] at hrest
        have hacc : Nesting.allow.Accepts [] _ := Nesting.accepts_nil_iff.mpr ⟨hrest, by simp⟩
        obtain ⟨⟨outer, hnil, -⟩, -⟩ := hacc.of_append hinner
        simp at hnil
      rw [List.append_assoc, List.cons_append, ih hopener, unmatched, if_neg hnot,
        unmatched_append_of_balanced hbody, List.append_assoc]
      rfl

lemma unmatched_eq (h : Pending ms waiting) : unmatched ms = waiting := by
  have happend : unmatched (ms ++ []) = unmatched [] ++ waiting := h.unmatched_append .nil
  rwa [List.append_nil] at happend

end Pending

/-! ### The run of the pairing -/

/-- The markers are admitted one after the other: they lead from waiting openers to waiting
openers, with nestings to warn of. -/
inductive Admits (nesting : Nesting) :
    List Waiting → List Marker → List Waiting → List Nested → Prop
  | nil (waiting : List Waiting) : Admits nesting waiting [] waiting []
  | cons {waiting waiting' waiting'' : List Waiting} {m : Marker} {ms : List Marker}
      {piece : Piece} {ns ns' : List Nested}
      (hm : m.admit nesting waiting = .ok (piece, waiting', ns))
      (h : Admits nesting waiting' ms waiting'' ns') :
      Admits nesting waiting (m :: ms) waiting'' (ns ++ ns')

namespace Admits

variable {nesting : Nesting} {waiting waiting' waiting'' : List Waiting} {ms ms' : List Marker}
  {ns ns' : List Nested}

lemma append (h : Admits nesting waiting ms waiting' ns)
    (h' : Admits nesting waiting' ms' waiting'' ns') :
    Admits nesting waiting (ms ++ ms') waiting'' (ns ++ ns') := by
  induction h with
  | nil => exact h'
  | cons hm h ih =>
      rw [List.append_assoc]
      exact .cons hm (ih h')

/-- A run over two sequences is a run over the one, then a run over the other. -/
lemma of_append (h : Admits nesting waiting (ms ++ ms') waiting'' ns) :
    ∃ waiting' ns₁ ns₂, Admits nesting waiting ms waiting' ns₁ ∧
      Admits nesting waiting' ms' waiting'' ns₂ ∧ ns = ns₁ ++ ns₂ := by
  induction ms generalizing waiting ns with
  | nil => exact ⟨waiting, [], ns, .nil waiting, h, rfl⟩
  | cons m ms ih =>
      cases h with
      | @cons _ mid _ _ _ piece ns₀ ns₁ hm h =>
          obtain ⟨waiting', ns₁, ns₂, h₁, h₂, rfl⟩ := ih h
          exact ⟨waiting', ns₀ ++ ns₁, ns₂, .cons hm h₁, h₂, (List.append_assoc ..).symm⟩

/-- **A run** keeps the sequence read so far cut at the openers that wait. -/
lemma pending {before : List Marker} (hbefore : Pending before waiting)
    (h : Admits nesting waiting ms waiting' ns) : Pending (before ++ ms) waiting' := by
  induction h generalizing before with
  | nil => rwa [List.append_nil]
  | @cons _ _ _ m ms _ _ _ hm h ih =>
      have hstep := ih (hbefore.step hm)
      rwa [List.append_assoc, List.singleton_append] at hstep

/-- **The openers that wait after a run are the unmatched ones.** -/
lemma unmatched_eq (h : Admits nesting [] ms waiting ns) : unmatched ms = waiting :=
  (h.pending .nil).unmatched_eq

/-- End markers for all openers that wait end the run. -/
lemma exists_ends (nesting : Nesting) (waiting : List Waiting) :
    ∃ ms, Admits nesting waiting ms [] [] := by
  induction waiting with
  | nil => exact ⟨[], .nil []⟩
  | cons inner outer ih =>
      obtain ⟨ms, h⟩ := ih
      exact ⟨.ender inner.kind Place.start :: ms,
        .cons (Marker.admit_ender_eq_ok_iff.mpr ⟨inner, rfl, rfl, rfl, rfl⟩) h⟩

end Admits

/-- A pairing is a run after which no opener waits, with the warnings of the run. -/
lemma Pairing.exists_ofMarked_iff_admits {nesting : Nesting} {tail : Text} {waiting : List Waiting}
    {ms : List Marked} {ns : List Nested} :
    (∃ p, ofMarked nesting tail waiting ms = .ok p ∧ p.warnings = ns) ↔
      Admits nesting waiting (ms.map (·.marker)) [] ns := by
  induction ms generalizing waiting ns with
  | nil =>
      simp only [ofMarked_nil_eq_ok_iff, List.map_nil]
      constructor
      · rintro ⟨p, ⟨rfl, rfl⟩, rfl⟩
        exact .nil []
      · rintro ⟨⟩
        exact ⟨_, ⟨rfl, rfl⟩, rfl⟩
  | cons m ms ih =>
      simp only [ofMarked_cons_eq_ok_iff, List.map_cons]
      constructor
      · rintro ⟨p, ⟨piece, waiting', ns, rest, hm, hrest, rfl⟩, rfl⟩
        exact .cons hm (ih.mp ⟨rest, hrest, rfl⟩)
      · intro h
        cases h with
        | @cons _ waiting' _ _ _ piece ns ns' hm h =>
            obtain ⟨rest, hrest, rfl⟩ := ih.mpr h
            exact ⟨_, ⟨piece, waiting', ns, rest, hm, hrest, rfl⟩, rfl⟩

end TemplateGuards
