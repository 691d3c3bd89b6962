import TemplateGuards.Proofs.EnforcerCall
import TemplateGuards.Proofs.Pieces
import TemplateGuards.Proofs.SameReading
import TemplateGuards.Proofs.Splice

/-!
Templates with other white space around the arguments of their openers.  The white space stands at
the ends of pieces, where no reader takes notice of it, not even one that came in through the
parenthesis of an escaped opener and takes the pieces for the inside of a literal.  So all that is
seen elsewhere in the template is seen as before, and the template compiles to the same text.

* `Respaced`, `Marker.Respaces`: an argument text with other white space around its pieces, and the
  text of a marker with such arguments;
* `Alike`: texts that differ in the white space of openers only; they are read the same
  (`Alike.sameReading`), and what is seen in the one is seen in the other;
* `Outline.Scanned.respaced`: the scan of the changed template;
* `Pairing.ofMarked_resembles`: its pairing;
* `compile_respaced`: its compiled text.
-/

namespace TemplateGuards

open Text

/-! ### Other white space -/

/-- Is the second argument text the first with other white space around its pieces? -/
def Respaced (args args' : Text) : Prop :=
  ∃ padded, List.Forall₂ Pads (splitArguments args) padded ∧ args' = [','].intercalate padded

/-- Is the text that of the marker, up to the white space around the arguments of an opener? -/
inductive Marker.Respaces : Marker → Text → Prop
  | opener {kind : Kind} {args args' : Text} {place : Place} (h : Respaced args args') :
      Respaces (.opener kind args place) (Region.opener kind args').source
  | ender {kind : Kind} {place : Place} :
      Respaces (.ender kind place) (Region.ender kind).source

lemma Leads.of_pads {depth depth' : Nat} {p t : Text} (h : Leads depth p depth')
    (ht : Pads p t) : Leads depth t depth' := by
  obtain ⟨u, v, hu, hv, rfl⟩ := ht
  exact (leads_of_allBlank hu depth).append (h.append (leads_of_allBlank hv depth'))

lemma LeadsAll.of_pads {depth depth' : Nat} {ps ts : List Text} (h : LeadsAll depth ps depth')
    (hts : List.Forall₂ Pads ps ts) : LeadsAll depth ts depth' := by
  induction h generalizing ts with
  | nil depth =>
      cases hts
      exact .nil depth
  | cons hp _ ih =>
      cases hts with
      | cons ht hts => exact .cons (hp.of_pads ht) (ih hts)

namespace Respaced

variable {args args' : Text}

/-- The white space may stay as it is. -/
lemma refl (args : Text) : Respaced args args :=
  (pieces_splitArguments args).2

lemma splitArguments_eq (h : Respaced args args') : splitArguments args' = splitArguments args := by
  obtain ⟨padded, hpadded, rfl⟩ := h
  exact splitArguments_of_pads (List.infix_refl _) (splitArguments_ne_nil args) hpadded

/-- A parenthesis that closes behind the one text closes behind the other. -/
lemma leads (h : Respaced args args') (hargs : Leads 0 args 0) : Leads 0 args' 0 := by
  obtain ⟨padded, hpadded, rfl⟩ := h
  have hcomma : Leads 0 [','] 0 := by decide
  exact ((splitArguments_leadsAll hargs).of_pads hpadded).intercalate hcomma

end Respaced

/-! ### Texts that are read the same -/

open Quotation

/-- Is the quotation not right after a backslash? -/
def Quotation.Unescaped (q : Quotation) : Prop := ∀ mark, q ≠ escaped mark

lemma Quotation.unescaped_step (q : Quotation) {c : Char} (h : c ≠ '\\') :
    (q.step c).Unescaped := by
  intro mark
  cases q with
  | outside => rw [step]; split_ifs <;> simp
  | inside mark' => rw [step, if_neg h]; split_ifs <;> simp
  | escaped mark' => simp [step]

/-- White space leaves a reader where it is, unless a backslash escapes it. -/
lemma step_of_isBlank {q : Quotation} (hq : q.IsReal) (hesc : q.Unescaped) {c : Char}
    (hc : isBlank c = true) (depth : Nat) : q.step c = q ∧ q.depth? depth c = some depth := by
  cases q with
  | outside => exact depth?_of_isBlank hc depth
  | inside mark =>
      have hslash : c ≠ '\\' := ne_of_isBlank hc (by decide)
      have hmark : c ≠ mark := ne_of_isBlank hc (isBlank_of_isMark hq)
      exact ⟨by rw [step, if_neg hslash, if_neg hmark], rfl⟩
  | escaped mark => exact absurd rfl (hesc mark)

lemma sameReading_of_allBlank {q : Quotation} (hq : q.IsReal) (hesc : q.Unescaped) {u : Text}
    (hu : allBlank u = true) : SameReading q u [] := by
  induction u with
  | nil => exact .refl q []
  | cons c u ih =>
      rw [allBlank, List.all_cons, Bool.and_eq_true] at hu
      have hstep := step_of_isBlank hq hesc hu.1
      have hrest := ih hu.2
      constructor
      · rw [after_cons, (hstep 0).1, hrest.after]
      · intro depth
        have hc : q.depthAfter? depth (c :: u) = q.depthAfter? depth u := by
          rw [depthAfter?, (hstep depth).2, (hstep depth).1, Option.bind_some]
        exact hc.trans (hrest.depth depth)

/-- A comma or a closing parenthesis is read the same with white space before it and without: where
a backslash escapes the one in a literal, it escapes the other. -/
lemma sameReading_blank_append {q : Quotation} (hq : q.IsReal) {v : Text}
    (hv : allBlank v = true) {c : Char} (hc : c = ',' ∨ c = ')') :
    SameReading q (v ++ [c]) [c] := by
  have hunescaped : ∀ {q : Quotation} {v : Text}, q.IsReal → q.Unescaped → allBlank v = true →
      SameReading q (v ++ [c]) [c] :=
    fun hq hesc hv => (sameReading_of_allBlank hq hesc hv).append (.refl _ [c])
  cases q with
  | outside => exact hunescaped hq (by simp [Unescaped]) hv
  | inside mark => exact hunescaped hq (by simp [Unescaped]) hv
  | escaped mark =>
      cases v with
      | nil => exact .refl _ [c]
      | cons b v =>
          rw [allBlank, List.all_cons, Bool.and_eq_true] at hv
          have hrest : SameReading (inside mark) (v ++ [c]) [c] :=
            hunescaped hq (by simp [Unescaped]) hv.2
          have hinside : (inside mark).after [c] = inside mark := by
            have hslash : c ≠ '\\' := by rcases hc with rfl | rfl <;> decide
            have hmark : c ≠ mark := by
              rintro rfl
              have hmark : isMark c = true := hq
              rcases hc with rfl | rfl <;> revert hmark <;> decide
            rw [after_cons, after_nil, step, if_neg hslash, if_neg hmark]
          constructor
          · rw [List.cons_append, after_cons]
            exact hrest.after.trans hinside
          · intro depth
            exact hrest.depth depth

/-- Pieces are read the same with white space around them and without, up to the parenthesis behind
them. -/
lemma sameReading_intercalate {q : Quotation} (hq : q.IsReal) (hesc : q.Unescaped)
    {ps ts : List Text} (h : List.Forall₂ Pads ps ts) :
    SameReading q ([','].intercalate ts ++ [')']) ([','].intercalate ps ++ [')']) := by
  induction h generalizing q with
  | nil => exact .refl q _
  | @cons p t ps ts hp hps ih =>
      obtain ⟨u, v, hu, hv, rfl⟩ := hp
      have hpiece : ∀ c, c = ',' ∨ c = ')' →
          SameReading q (u ++ (p ++ (v ++ [c]))) (p ++ [c]) := fun c hc =>
        (sameReading_of_allBlank hq hesc hu).append
          ((SameReading.refl q p).append (sameReading_blank_append (hq.after p) hv hc))
      cases hps with
      | nil => simpa using hpiece ')' (Or.inr rfl)
      | @cons p' t' ps ts hp' hps =>
          have hnext : (q.after (p ++ [','])).Unescaped := by
            rw [after_append]
            exact unescaped_step _ (by decide)
          have hrest := ih (hq.after (p ++ [','])) hnext
          simpa [List.intercalate_cons_cons] using (hpiece ',' (Or.inl rfl)).append hrest

/-- **An opener is read the same** with other white space around its arguments, wherever a reader
stands before it. -/
lemma Respaced.sameReading {q : Quotation} (hq : q.IsReal) (kind : Kind) {args args' : Text}
    (h : Respaced args args') :
    SameReading q (Region.opener kind args).source (Region.opener kind args').source := by
  obtain ⟨padded, hpadded, rfl⟩ := h
  obtain ⟨own, hown, hargs⟩ := Respaced.refl args
  have hopened : (q.after ('@' :: (Tag.opener kind).word)).Unescaped := by
    rw [Tag.word, ← List.cons_append, after_append]
    exact unescaped_step _ (by decide)
  have hreal := hq.after ('@' :: (Tag.opener kind).word)
  have hinner := (sameReading_intercalate hreal hopened hown).trans
    (sameReading_intercalate hreal hopened hpadded).symm
  rw [← hargs] at hinner
  simpa [Region.source] using (SameReading.refl q ('@' :: (Tag.opener kind).word)).append hinner

/-! ### Texts alike -/

/-- The texts differ in the white space around the arguments of openers only. -/
inductive Alike : Text → Text → Prop
  | nil : Alike [] []
  | cons {s s' : Text} (c : Char) (h : Alike s s') : Alike (c :: s) (c :: s')
  | opener {args args' rest rest' : Text} (kind : Kind) (hargs : Respaced args args')
      (h : Alike rest rest') :
      Alike ((Region.opener kind args).source ++ rest) ((Region.opener kind args').source ++ rest')

namespace Alike

variable {s s' : Text}

lemma append_left (h : Alike s s') (t : Text) : Alike (t ++ s) (t ++ s') := by
  induction t with
  | nil => exact h
  | cons c t ih => exact .cons c ih

/-- Alike texts are read the same. -/
lemma sameReading (h : Alike s s') {q : Quotation} (hq : q.IsReal) : SameReading q s s' := by
  induction h generalizing q with
  | nil => exact .refl q []
  | cons c _ ih => exact (SameReading.refl q [c]).append (ih (hq.step c))
  | opener kind hargs _ ih => exact (hargs.sameReading hq kind).append (ih (hq.after _))

/-- A tag is at a boundary before both texts or before none. -/
lemma admits_eq (h : Alike s s') (tag : Tag) : tag.admits s' = tag.admits s := by
  cases h with
  | nil => rfl
  | cons c _ => cases tag <;> rfl
  | opener kind _ _ => cases tag <;> rfl

/-- Alike texts are equal, or they are up to the parenthesis of an opener. -/
lemma eq_or_exists_opener (h : Alike s s') :
    s = s' ∨ ∃ t kind x x', s = t ++ '@' :: ((Tag.opener kind).word ++ x) ∧
      s' = t ++ '@' :: ((Tag.opener kind).word ++ x') := by
  induction h with
  | nil => exact Or.inl rfl
  | cons c _ ih =>
      rcases ih with rfl | ⟨t, kind, x, x', rfl, rfl⟩
      · exact Or.inl rfl
      · exact Or.inr ⟨c :: t, kind, x, x', rfl, rfl⟩
  | @opener args args' rest rest' kind _ _ _ =>
      exact Or.inr ⟨[], kind, args ++ ')' :: rest, args' ++ ')' :: rest',
        by simp [Region.source], by simp [Region.source]⟩

end Alike

/-- A literal that starts before the parenthesis of an opener does not see what stands behind it. -/
lemma Starts.of_opener {t x x' rest : Text} {tag : Tag} {kind : Kind}
    (h : Starts (t ++ '@' :: ((Tag.opener kind).word ++ x')) tag rest) :
    ∃ tag' rest', Starts (t ++ '@' :: ((Tag.opener kind).word ++ x)) tag' rest' := by
  cases t with
  | nil => exact ⟨.opener kind, x, rfl, rfl⟩
  | cons c t =>
      obtain ⟨heq, hadm⟩ := h
      obtain ⟨rfl, hsplit⟩ := List.cons.inj heq
      -- no word holds the `@` of the opener, so the word ends before it
      rcases List.append_eq_append_iff.mp hsplit with ⟨u, hword, hu⟩ | ⟨u, rfl, rfl⟩
      · cases u with
        | nil =>
            obtain rfl : tag.word = t := by rw [hword, List.append_nil]
            rw [List.nil_append] at hu
            refine ⟨tag, _, rfl, ?_⟩
            rw [← hu] at hadm
            cases tag <;> exact hadm
        | cons b u =>
            obtain ⟨rfl, -⟩ := List.cons.inj hu
            exact absurd (hword ▸ List.mem_append_right t List.mem_cons_self) tag.at_not_mem_word
      · refine ⟨tag, u ++ '@' :: ((Tag.opener kind).word ++ x), ⟨by simp, ?_⟩⟩
        rw [← hadm]
        cases u <;> cases tag <;> rfl

/-- Where a literal starts in one of two alike texts, one starts in the other. -/
lemma Alike.exists_starts {s s' rest : Text} {tag : Tag} (h : Alike s s')
    (hs : Starts s' tag rest) : ∃ tag' rest', Starts s tag' rest' := by
  rcases h.eq_or_exists_opener with rfl | ⟨t, kind, x, x', rfl, rfl⟩
  · exact ⟨tag, rest, hs⟩
  · exact hs.of_opener

/-- Ordinary text is ordinary in front of alike texts. -/
lemma Alike.ofText_ordinary {s s' : Text} {c : Char} (h : Alike s s')
    (ho : Sighting.ofText (c :: s) = .ordinary) : Sighting.ofText (c :: s') = .ordinary := by
  rcases Sighting.ofText_cases (c :: s') with ho' | ⟨tag, rest, hs⟩ | ⟨u, tag, rest, hu, hs⟩
  · exact ho'
  · obtain ⟨tag', rest', hs'⟩ := (h.cons c).exists_starts hs
    exact absurd hs' (Sighting.not_starts_of_ordinary ho tag' rest')
  · obtain ⟨rfl, rfl⟩ := List.cons.inj hu
    obtain ⟨tag', rest', hs'⟩ := h.exists_starts hs
    exact absurd hs' (Sighting.not_starts_tail_of_ordinary ho tag' rest')

/-- A region ends where it did. -/
lemma Alike.endsAt {rest rest' : Text} {r : Region} (h : Alike rest rest') (hr : r.EndsAt rest) :
    r.EndsAt rest' :=
  hr.congr (h.sameReading IsReal.outside) h.admits_eq

/-! ### The scan -/

/-- The same gap and the same marker, but for its place and the white space of its arguments. -/
inductive Marked.Resembles : Marked → Marked → Prop
  | opener {gap : Text} {kind : Kind} {args args' : Text} {place place' : Place}
      (h : splitArguments args' = splitArguments args) :
      Resembles ⟨gap, .opener kind args place⟩ ⟨gap, .opener kind args' place'⟩
  | ender {gap : Text} {kind : Kind} {place place' : Place} :
      Resembles ⟨gap, .ender kind place⟩ ⟨gap, .ender kind place'⟩

/-- **The scan of a template with other white space** in its openers goes the same way: it sets
markers that resemble those of the template, with the same text around them. -/
lemma Outline.Scanned.respaced {place : Place} {gap s : Text} {o : Outline}
    (h : Scanned place gap s o) {news : List Text}
    (hnews : List.Forall₂ Marker.Respaces o.markers news) :
    ∃ s', Alike s s' ∧ weave o.marked news o.tail = gap.reverse ++ s' ∧
      ∀ place', ∃ o', Scanned place' gap s' o' ∧ o'.tail = o.tail ∧
        List.Forall₂ Marked.Resembles o.marked o'.marked := by
  induction h generalizing news with
  | nil place gap =>
      cases hnews
      exact ⟨[], .nil, by simp [weave], fun place' => ⟨_, .nil place' gap, rfl, .nil⟩⟩
  | @ordinary place gap s c o hc _ ih =>
      obtain ⟨s', halike, hweave, hscan⟩ := ih hnews
      refine ⟨c :: s', halike.cons c, by simpa using hweave, fun place' => ?_⟩
      obtain ⟨o', ho', hsame⟩ := hscan (place'.next c)
      exact ⟨o', .ordinary (halike.ofText_ordinary hc) ho', hsame⟩
  | @live place gap rest r m o hend hm _ ih =>
      obtain ⟨-, hregion, -⟩ := Region.marker?_eq_some_iff.mp hm
      cases hnews with
      | @cons _ new _ news hnew hnews =>
          obtain ⟨s', halike, hweave, hscan⟩ := ih hnews
          rw [List.reverse_nil, List.nil_append] at hweave
          have hwoven : weave (o.mark gap.reverse m).marked (new :: news) o.tail =
              gap.reverse ++ (new ++ s') := by
            rw [← hweave]
            exact weave_cons ⟨gap.reverse, m⟩ o.marked new news o.tail
          cases hnew with
          | @opener kind args args' place₀ hargs =>
              subst hregion
              refine ⟨_, .opener kind hargs halike, hwoven, fun place' => ?_⟩
              obtain ⟨o', ho', htail, hmarked⟩ :=
                hscan (place'.advance (Region.opener kind args').source)
              have hclose : (Region.opener kind args').EndsAt s' :=
                firstClosing_iff_leads.mpr (hargs.leads (firstClosing_iff_leads.mp hend))
              exact ⟨o'.mark gap.reverse (.opener kind args' place'), .live hclose rfl ho', htail,
                .cons (.opener hargs.splitArguments_eq) hmarked⟩
          | @ender kind place₀ =>
              subst hregion
              refine ⟨_, halike.append_left _, hwoven, fun place' => ?_⟩
              obtain ⟨o', ho', htail, hmarked⟩ := hscan (place'.advance (Region.ender kind).source)
              exact ⟨o'.mark gap.reverse (.ender kind place'),
                .live (halike.endsAt hend) rfl ho', htail, .cons .ender hmarked⟩
  | @escaped place gap rest r o hend hm _ ih =>
      obtain ⟨s', halike, hweave, hscan⟩ := ih hnews
      refine ⟨r.source ++ s', halike.append_left _, by simpa using hweave, fun place' => ?_⟩
      obtain ⟨o', ho', hsame⟩ := hscan (place'.advance r.source)
      have hmarker : r.marker? place' = none :=
        Region.marker?_eq_none_iff.mpr (Region.marker?_eq_none_iff.mp hm)
      exact ⟨o', .escaped (halike.endsAt hend) hmarker ho', hsame⟩

/-! ### The pairing -/

lemma Arguments.parse_congr {args args' : Text} (h : splitArguments args' = splitArguments args) :
    Arguments.parse args' = Arguments.parse args := by
  rw [parse, parse, h]

/-- **One marker** makes the same piece as one that resembles it, where openers of the same kinds
wait. -/
lemma Marker.admit_resembles {nesting : Nesting} {waiting waiting' after : List Waiting}
    {m m' : Marked} {piece : Piece} {ns : List Nested} (h : m.Resembles m')
    (hkinds : waiting'.map (·.kind) = waiting.map (·.kind))
    (hm : m.marker.admit nesting waiting = .ok (piece, after, ns)) :
    ∃ after' ns', m'.marker.admit nesting waiting' = .ok (piece, after', ns') ∧
      after'.map (·.kind) = after.map (·.kind) := by
  cases h with
  | @opener gap kind args args' place place' hargs =>
      obtain ⟨a, ha, hjudge, rfl, rfl⟩ := Marker.admit_opener_eq_ok_iff.mp hm
      have hallowed := Nesting.exists_judge_iff.mp ⟨ns, hjudge⟩
      rw [← hkinds] at hallowed
      obtain ⟨ns', hjudge'⟩ : ∃ ns', nesting.judge kind place'.position waiting' = .ok ns' :=
        Nesting.exists_judge_iff.mpr hallowed
      refine ⟨_, ns', Marker.admit_opener_eq_ok_iff.mpr
        ⟨a, (Arguments.parse_congr hargs).trans ha, hjudge', rfl, rfl⟩, ?_⟩
      rw [List.map_cons, List.map_cons, hkinds]
  | @ender gap kind place place' =>
      obtain ⟨inner, rfl, rfl, rfl, rfl⟩ := Marker.admit_ender_eq_ok_iff.mp hm
      obtain ⟨inner', outer', rfl, hinner, houter⟩ := List.map_eq_cons_iff.mp hkinds
      exact ⟨outer', [], Marker.admit_ender_eq_ok_iff.mpr ⟨inner', rfl, hinner, rfl, rfl⟩, houter⟩

/-- **All markers** make the same pieces. -/
lemma Pairing.ofMarked_resembles {nesting : Nesting} {tail : Text}
    {waiting waiting' : List Waiting} {ms ms' : List Marked} {p : Pairing}
    (h : List.Forall₂ Marked.Resembles ms ms')
    (hkinds : waiting'.map (·.kind) = waiting.map (·.kind))
    (hp : ofMarked nesting tail waiting ms = .ok p) :
    ∃ p', ofMarked nesting tail waiting' ms' = .ok p' ∧ p'.pieces = p.pieces := by
  induction h generalizing waiting waiting' p with
  | nil =>
      obtain ⟨rfl, rfl⟩ := ofMarked_nil_eq_ok_iff.mp hp
      obtain rfl := List.map_eq_nil_iff.mp hkinds
      exact ⟨_, rfl, rfl⟩
  | @cons m m' ms ms' hm hms ih =>
      obtain ⟨piece, after, ns, rest, hadmit, hrest, rfl⟩ := ofMarked_cons_eq_ok_iff.mp hp
      obtain ⟨after', ns', hadmit', hkinds'⟩ := Marker.admit_resembles hm hkinds hadmit
      obtain ⟨rest', hrest', hpieces⟩ := ih hkinds' hrest
      refine ⟨_, ofMarked_cons_eq_ok_iff.mpr
        ⟨piece, after', ns', rest', hadmit', hrest', rfl⟩, ?_⟩
      have hgap : m'.gap = m.gap := by cases hm <;> rfl
      rw [hpieces, hgap]

/-! ### The compiled text -/

/-- **White space around arguments does not matter.**  With other white space at the two ends of
the arguments of openers and around the commas that separate them, put in at the spans of the
markers, a template that compiles still does, and to the same text. -/
theorem compile_respaced (d : Dialect) (nesting : Nesting) (source : Text) (o : Outline)
    (c : Compiled) (news : List Text) (ho : Outline.ofText source = .ok o)
    (hc : compile d nesting source = .ok c)
    (hnews : List.Forall₂ Marker.Respaces o.markers news) :
    ∃ c', compile d nesting (source.splice 0 ((o.markers.map Marker.span).zip news)) = .ok c' ∧
      c'.text = c.text := by
  obtain ⟨o', p, ho', hp, rfl⟩ := exists_pairing_of_compile_eq_ok hc
  cases ho.symm.trans ho'
  obtain ⟨source', -, hweave, hscan⟩ := (Outline.scan_eq_ok_iff.mp ho).respaced hnews
  obtain ⟨o', hscan', htail, hmarked⟩ := hscan Place.start
  have hlen : o.marked.length = news.length := by simpa [Outline.markers] using hnews.length_eq
  rw [Outline.splice_eq_weave ho hlen, hweave, List.reverse_nil, List.nil_append,
    compile_of_ofText_eq_ok (Outline.scan_eq_ok_iff.mpr hscan')]
  obtain ⟨p', hp', hpieces⟩ : ∃ p', Pairing.ofOutline nesting o' = .ok p' ∧
      p'.pieces = p.pieces := by
    rw [Pairing.ofOutline, htail]
    exact Pairing.ofMarked_resembles hmarked rfl hp
  have hmarkers : o'.markers = [] ↔ o.markers = [] := by
    rw [Outline.markers_eq_nil_iff, Outline.markers_eq_nil_iff, ← List.length_eq_zero_iff,
      ← hmarked.length_eq, List.length_eq_zero_iff]
  refine ⟨_, by rw [hp']; rfl, ?_⟩
  simp only [hmarkers, hpieces]

/-- An escaped opener before whose parenthesis the openers stand inside a literal, and a backslash
that escapes white space there before the change and a comma after it. -/
theorem compile_respaced_literal :
    let source : Text := "é@@allows('@denies( a\\ , b )x@allows(c)@endallows@enddenies"
    let news : List Text :=
      ["@denies(a\\,\n\tb)", "@allows(c\n)", "@endallows", "@enddenies"]
    let d : Dialect :=
      ⟨"-", "if \x7bpolicy\x7d:", "if \x7bpolicy\x7d(\x7baux\x7d):", "end", [], [',']⟩
    ∃ o c c', Outline.ofText source = .ok o ∧ compile d .deny source = .ok c ∧
      List.Forall₂ Marker.Respaces o.markers news ∧
      source.splice 0 ((o.markers.map Marker.span).zip news) =
        ("é@@allows('@denies(a\\,\n\tb)x@allows(c\n)@endallows@enddenies" : Text) ∧
      compile d .deny (source.splice 0 ((o.markers.map Marker.span).zip news)) = .ok c' ∧
      c'.text = c.text := by
  intro source news d
  let o : Outline :=
    ⟨[⟨"é@@allows('", .opener .denies " a\\ , b " ⟨12, 1, 12⟩⟩,
      ⟨"x", .opener .allows "c" ⟨30, 1, 30⟩⟩, ⟨"", .ender .allows ⟨40, 1, 40⟩⟩,
      ⟨"", .ender .denies ⟨50, 1, 50⟩⟩], ""⟩
  have ho : Outline.ofText source = .ok o := by decide +kernel
  have hc : compile d .deny source = .ok ⟨"-é@@allows('if a\\(b):xif c:endend", []⟩ := by
    decide +kernel
  have hpair : Respaced " a\\ , b " "a\\,\n\tb" := by
    refine ⟨["a\\", "\n\tb"], ?_, rfl⟩
    rw [show splitArguments " a\\ , b " = ["a\\", "b"] by decide]
    exact .cons ⟨[], [], rfl, rfl, rfl⟩ (.cons ⟨"\n\t", [], by decide, rfl, rfl⟩ .nil)
  have hone : Respaced "c" "c\n" := by
    refine ⟨["c\n"], ?_, rfl⟩
    rw [show splitArguments "c" = ["c"] by decide]
    exact .cons ⟨[], "\n", rfl, by decide, rfl⟩ .nil
  have hnews : List.Forall₂ Marker.Respaces o.markers news :=
    .cons (@Marker.Respaces.opener .denies _ _ _ hpair)
      (.cons (@Marker.Respaces.opener .allows _ _ _ hone)
        (.cons (@Marker.Respaces.ender .allows _) (.cons (@Marker.Respaces.ender .denies _) .nil)))
  obtain ⟨c', hc', htext⟩ := compile_respaced d .deny source _ _ news ho hc hnews
  exact ⟨_, _, c', ho, hc, hnews, by decide +kernel, hc', htext⟩

end TemplateGuards
