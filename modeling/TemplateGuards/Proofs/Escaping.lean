import TemplateGuards.Proofs.SameReading
import TemplateGuards.Proofs.Splice

/-!
Templates whose markers are escaped.  One more `@` in front of every marker turns it into the
escaped region of the same tag and arguments, and changes nothing else that is seen: an `@` is
neither a parenthesis nor a mark, and one more of them behind a backslash only takes the place of
the first.  So no marker is left, and the template compiles to itself.

* `Text.insertAt`: a text put in at some byte offsets of another;
* `Doubled`: texts that differ in doubled `@`s only; they are read the same
  (`Doubled.sameReading`), and a literal of the one is a literal of the other (`Doubled.starts`);
* `Region.escape`: the escaped form of a live region;
* `Outline.Scanned.escape`: the scan of the changed template;
* `compile_escape`: its outline and its compilation.
-/

namespace TemplateGuards

/-! ### Texts put in -/

namespace Text

/-- The text with another text put in at some byte offsets. -/
def insertAt (t new : Text) (offsets : List Nat) : Text :=
  t.splice 0 (offsets.map fun i => ((i, i), new))

end Text

/-- Between placed markers a text is put in by putting it in front of each of them.  Here `read`
is what stands in front of the first gap since the last text put in. -/
lemma splice_insert_of_placed (new tail : Text) {done read : Text} {ms : List Marked}
    (h : Outline.Placed (Text.byteSize (done ++ read)) ms) :
    Text.splice (done ++ (read ++ weave ms (ms.map (·.marker.source)) tail)) (Text.byteSize done)
        (ms.map fun m => ((m.marker.span.1, m.marker.span.1), new)) =
      read ++ weave ms (ms.map fun m => new ++ m.marker.source) tail := by
  induction ms generalizing done read with
  | nil => simp [weave, Text.splice, Text.dropBytes_byteSize]
  | cons m ms ih =>
      obtain ⟨hspan, hms⟩ := h.span_eq
      have hrest := ih hms
      have hstart : m.marker.span.1 = Text.byteSize done + Text.byteSize (read ++ m.gap) := by
        rw [hspan, List.append_assoc, Text.byteSize_append]
      rw [List.append_assoc done, List.append_assoc done, Text.byteSize_append] at hrest
      rw [List.map_cons, weave_cons, ← List.append_assoc read, List.map_cons, Text.splice, hstart,
        Text.slice_append, hrest, List.map_cons, weave_cons]
      simp

namespace Outline

/-- A text put in at the markers of a template stands between the gaps and the markers. -/
lemma insertAt_eq_weave {source : Text} {o : Outline} (h : ofText source = .ok o) (new : Text) :
    source.insertAt new (o.markers.map (·.span.1)) =
      weave o.marked (o.marked.map fun m => new ++ m.marker.source) o.tail := by
  have hplaced : Placed (Text.byteSize ([] ++ [])) o.marked := placed_ofText h
  have hsplice := splice_insert_of_placed new o.tail hplaced
  rw [List.nil_append, List.nil_append, weave_source, source_ofText h] at hsplice
  rw [Text.insertAt, markers, List.map_map, List.map_map]
  exact hsplice

end Outline

/-! ### Doubled `@`s -/

/-- The second text is the first with some of its `@`s doubled. -/
inductive Doubled : Text → Text → Prop
  | nil : Doubled [] []
  | cons {s s' : Text} (c : Char) (h : Doubled s s') : Doubled (c :: s) (c :: s')
  | double {s s' : Text} (h : Doubled s s') : Doubled ('@' :: s) ('@' :: '@' :: s')

namespace Doubled

open Quotation

variable {s s' : Text}

lemma append_left (h : Doubled s s') (t : Text) : Doubled (t ++ s) (t ++ s') := by
  induction t with
  | nil => exact h
  | cons c t ih => exact .cons c ih

/-- A second `@` leaves a reader where the first has brought it, even behind a backslash. -/
lemma sameReading_at {q : Quotation} (hq : q.IsReal) : SameReading q ['@'] ['@', '@'] := by
  have hinside : ∀ mark, isMark mark = true → (inside mark).step '@' = inside mark := by
    intro mark hmark
    have hne : '@' ≠ mark := by
      rintro rfl
      exact absurd hmark (by decide)
    simp [step, hne]
  cases q with
  | outside => exact ⟨rfl, fun _ => rfl⟩
  | inside mark =>
      have hstep := hinside mark hq
      exact ⟨by simp [hstep], fun depth => by simp [depthAfter?, depth?, covers, hstep]⟩
  | escaped mark =>
      have hstep : (inside mark).step '@' = inside mark := hinside mark hq
      exact ⟨hstep.symm, fun _ => rfl⟩

/-- Such texts are read the same. -/
lemma sameReading (h : Doubled s s') {q : Quotation} (hq : q.IsReal) : SameReading q s s' := by
  induction h generalizing q with
  | nil => exact .refl q []
  | cons c _ ih => exact (SameReading.refl q [c]).append (ih (hq.step c))
  | double _ ih => exact (sameReading_at hq).append (ih (hq.after ['@', '@']))

/-- They start with the same character, so that a tag is at a boundary before both or none. -/
lemma admits_eq (h : Doubled s s') (tag : Tag) : tag.admits s' = tag.admits s := by
  cases h <;> cases tag <;> rfl

lemma endsAt {r : Region} (h : Doubled s s') (hr : r.EndsAt s) : r.EndsAt s' :=
  hr.congr (h.sameReading IsReal.outside) h.admits_eq

/-- What stands without an `@` at the start of the one stands at the start of the other. -/
lemma exists_eq_append {t u : Text} (h : Doubled s (t ++ u)) (ht : '@' ∉ t) :
    ∃ v, s = t ++ v ∧ Doubled v u := by
  induction t generalizing s with
  | nil => exact ⟨s, rfl, h⟩
  | cons c t ih =>
      rw [List.mem_cons, not_or] at ht
      generalize hs' : c :: t ++ u = s' at h
      cases h with
      | nil => cases hs'
      | cons d h =>
          obtain ⟨rfl, rfl⟩ := List.cons.inj hs'
          obtain ⟨v, rfl, hv⟩ := ih h ht.2
          exact ⟨v, rfl, hv⟩
      | double h => exact absurd (List.cons.inj hs').1.symm ht.1

/-- **A literal of the one** is a literal of the other: the doubled `@`s are not in its word. -/
lemma starts {tag : Tag} {rest' : Text} (h : Doubled s s') (hs : Starts s' tag rest') :
    ∃ rest, Starts s tag rest := by
  obtain ⟨rfl, hadm⟩ := hs
  obtain ⟨c, cs, hword, hc⟩ := tag.word_eq_cons
  generalize hs' : tag.word ++ rest' = s' at h
  cases h with
  | cons c h =>
      subst hs'
      obtain ⟨rest, rfl, hrest⟩ := h.exists_eq_append tag.at_not_mem_word
      exact ⟨rest, rfl, (hrest.admits_eq tag).symm.trans hadm⟩
  | double h =>
      rw [hword] at hs'
      exact absurd (List.cons.inj hs').1 hc

/-- Ordinary text is ordinary in front of either. -/
lemma ofText_ordinary {c : Char} (h : Doubled s s') (ho : Sighting.ofText (c :: s) = .ordinary) :
    Sighting.ofText (c :: s') = .ordinary := by
  rcases Sighting.ofText_cases (c :: s') with ho' | ⟨tag, rest, hs⟩ | ⟨u, tag, rest, hu, hs⟩
  · exact ho'
  · obtain ⟨rest', hs'⟩ := (h.cons c).starts hs
    exact absurd hs' (Sighting.not_starts_of_ordinary ho tag rest')
  · obtain ⟨rfl, rfl⟩ := List.cons.inj hu
    obtain ⟨rest', hs'⟩ := h.starts hs
    exact absurd hs' (Sighting.not_starts_tail_of_ordinary ho tag rest')

end Doubled

/-! ### Escaped regions -/

namespace Region

/-- The escaped form of a region. -/
def escape : Region → Region
  | opener kind args => escapedOpener kind (some args)
  | ender kind => escapedEnder kind
  | escapedOpener kind args? => escapedOpener kind args?
  | escapedEnder kind => escapedEnder kind

variable {r : Region}

lemma isLive_escape (r : Region) : r.escape.isLive = false := by cases r <;> rfl

/-- A live region is escaped by one more `@`. -/
lemma source_escape (h : r.isLive = true) : r.escape.source = '@' :: r.source := by
  cases r with
  | opener kind args => rfl
  | ender kind => rfl
  | escapedOpener kind args? => cases h
  | escapedEnder kind => cases h

/-- The escaped form ends where the region does. -/
lemma EndsAt.escape {rest : Text} (h : r.EndsAt rest) : r.escape.EndsAt rest := by
  cases r <;> exact h

/-- A region starts with an `@`. -/
lemma exists_source_eq_cons (r : Region) : ∃ t, r.source = '@' :: t := by
  cases r with
  | escapedOpener kind args? => cases args? <;> exact ⟨_, rfl⟩
  | _ => exact ⟨_, rfl⟩

end Region

/-! ### The scan -/

/-- **The scan of a template with escaped markers** goes the same way and sets no marker. -/
lemma Outline.Scanned.escape {place : Place} {gap s : Text} {o : Outline}
    (h : Scanned place gap s o) :
    ∃ s', Doubled s s' ∧
      weave o.marked (o.marked.map fun m => ['@'] ++ m.marker.source) o.tail = gap.reverse ++ s' ∧
      ∀ place' gap', ∃ tail, Scanned place' gap' s' ⟨[], tail⟩ := by
  induction h with
  | nil place gap =>
      exact ⟨[], .nil, by simp [weave], fun place' gap' => ⟨gap'.reverse, .nil place' gap'⟩⟩
  | @ordinary place gap s c o hc _ ih =>
      obtain ⟨s', hdoubled, hweave, hscan⟩ := ih
      refine ⟨c :: s', hdoubled.cons c, by simpa using hweave, fun place' gap' => ?_⟩
      obtain ⟨tail, htail⟩ := hscan (place'.next c) (c :: gap')
      exact ⟨tail, .ordinary (hdoubled.ofText_ordinary hc) htail⟩
  | @live place gap rest r m o hend hm _ ih =>
      obtain ⟨s', hdoubled, hweave, hscan⟩ := ih
      obtain ⟨hlive, hregion, -⟩ := Region.marker?_eq_some_iff.mp hm
      have hescape := Region.source_escape hlive
      refine ⟨r.escape.source ++ s', ?_, ?_, fun place' gap' => ?_⟩
      · obtain ⟨t, ht⟩ := r.exists_source_eq_cons
        rw [hescape, ht]
        exact (hdoubled.append_left t).double
      · rw [hescape, ← hregion]
        have hcons := weave_cons ⟨gap.reverse, m⟩ o.marked ('@' :: m.source)
          (o.marked.map fun m => ['@'] ++ m.marker.source) o.tail
        rw [hweave] at hcons
        exact hcons
      · obtain ⟨tail, htail⟩ :=
          hscan (place'.advance r.escape.source) (r.escape.source.reverse ++ gap')
        exact ⟨tail, .escaped (hdoubled.endsAt hend).escape
          (Region.marker?_eq_none_iff.mpr r.isLive_escape) htail⟩
  | @escaped place gap rest r o hend hm _ ih =>
      obtain ⟨s', hdoubled, hweave, hscan⟩ := ih
      refine ⟨r.source ++ s', hdoubled.append_left _, by simpa using hweave,
        fun place' gap' => ?_⟩
      obtain ⟨tail, htail⟩ := hscan (place'.advance r.source) (r.source.reverse ++ gap')
      exact ⟨tail, .escaped (hdoubled.endsAt hend)
        (Region.marker?_eq_none_iff.mpr (Region.marker?_eq_none_iff.mp hm)) htail⟩

/-! ### The compilation -/

/-- **Escaping works.**  With one more `@` put in right in front of every marker a template has no
marker any more, and compiles to itself without warnings. -/
theorem compile_escape (source : Text) (o : Outline) (ho : Outline.ofText source = .ok o) :
    let escaped := source.insertAt ['@'] (o.markers.map (·.span.1))
    (∃ o', Outline.ofText escaped = .ok o' ∧ o'.markers = []) ∧
      ∀ d nesting, compile d nesting escaped = .ok (.unchanged escaped) := by
  intro escaped
  obtain ⟨s', -, hweave, hscan⟩ := (Outline.scan_eq_ok_iff.mp ho).escape
  obtain ⟨tail, htail⟩ := hscan Place.start []
  have hs' : escaped = s' := (Outline.insertAt_eq_weave ho ['@']).trans hweave
  have ho' : Outline.ofText escaped = .ok ⟨[], tail⟩ := hs' ▸ Outline.scan_eq_ok_iff.mpr htail
  refine ⟨⟨_, ho', rfl⟩, fun d nesting => ?_⟩
  rw [compile, ho']
  rfl

/-- Markers behind an escaped opener without a closing parenthesis, one of them behind a backslash
in a literal that the opener's search goes through, and one right behind an escaped end marker. -/
theorem compile_escape_literal :
    let source : Text :=
      "é@@denies('\\@allows(x) '@@@endallows@denies(\"@endallows\", y)@endallows@enddenies_@enddenies"
    let escaped : Text :=
      "é@@denies('\\@@allows(x) '@@@endallows@@denies(\"@endallows\", y)@@endallows@enddenies_" ++
        "@@enddenies"
    ∃ o, Outline.ofText source = .ok o ∧
      source.insertAt ['@'] (o.markers.map (·.span.1)) = escaped ∧
      (∃ o', Outline.ofText escaped = .ok o' ∧ o'.markers = []) ∧
      ∀ d nesting, compile d nesting escaped = .ok (.unchanged escaped) := by
  intro source escaped
  have ho : Outline.ofText source = .ok
      ⟨[⟨"é@@denies('\\", .opener .allows "x" ⟨13, 1, 13⟩⟩,
        ⟨" '@@@endallows", .opener .denies "\"@endallows\", y" ⟨37, 1, 37⟩⟩,
        ⟨"", .ender .allows ⟨61, 1, 61⟩⟩,
        ⟨"@enddenies_", .ender .denies ⟨82, 1, 82⟩⟩], ""⟩ := by decide +kernel
  have hescaped := compile_escape source _ ho
  have hinsert : source.insertAt ['@'] [13, 37, 61, 82] = escaped := by decide +kernel
  exact ⟨_, ho, hinsert, hinsert ▸ hescaped⟩

end TemplateGuards
