import Mathlib.Data.List.Forall2
import TemplateGuards.Proofs.Admission
import TemplateGuards.Proofs.Sighting

/-!
What compilation does to the text of a template: every marker is replaced at its own span, all
bytes around the markers are copied, and the preamble goes in front.

* `Text.slice`, `Text.splice`: a part of a text by byte offsets, and a text with other texts put
  in place of some of its spans;
* `Outline.Placed`: every marker lies where the text before it ends, which the scan keeps
  (`Outline.Scanned.placed`);
* `splice_of_placed`: replacing the spans of placed markers copies the gaps;
* `Pairing.render_ofMarked`: the pieces of a pairing are the gaps and what the markers become;
* `compile_splice`: the compiled text.
-/

namespace TemplateGuards

/-! ### Parts of a text by byte offsets -/

namespace Text

/-- The first characters of a text, up to a number of bytes. -/
def takeBytes : Nat → Text → Text
  | _, [] => []
  | n, c :: t => if n = 0 then [] else c :: takeBytes (n - c.utf8Size) t

/-- What is left of a text after a number of bytes. -/
def dropBytes : Nat → Text → Text
  | _, [] => []
  | n, c :: t => if n = 0 then c :: t else dropBytes (n - c.utf8Size) t

/-- The part of a text between two byte offsets. -/
def slice (t : Text) (span : Nat × Nat) : Text :=
  takeBytes (span.2 - span.1) (dropBytes span.1 t)

/-- The text from the byte `cursor` on, with another text in place of each span of a list. -/
def splice (t : Text) (cursor : Nat) : List ((Nat × Nat) × Text) → Text
  | [] => dropBytes cursor t
  | (span, new) :: edits => slice t (cursor, span.1) ++ new ++ splice t span.2 edits

lemma takeBytes_byteSize (s t : Text) : takeBytes (byteSize s) (s ++ t) = s := by
  induction s with
  | nil => cases t <;> simp [takeBytes]
  | cons c s ih =>
      have hne : c.utf8Size + byteSize s ≠ 0 := by
        have := c.utf8Size_pos
        omega
      rw [byteSize_cons, List.cons_append, takeBytes, if_neg hne, Nat.add_sub_cancel_left, ih]

lemma dropBytes_byteSize (s t : Text) : dropBytes (byteSize s) (s ++ t) = t := by
  induction s with
  | nil => cases t <;> simp [dropBytes]
  | cons c s ih =>
      have hne : c.utf8Size + byteSize s ≠ 0 := by
        have := c.utf8Size_pos
        omega
      rw [byteSize_cons, List.cons_append, dropBytes, if_neg hne, Nat.add_sub_cancel_left, ih]

/-- The part between the ends of a text's first two parts is the second part. -/
lemma slice_append (s t u : Text) :
    slice (s ++ (t ++ u)) (byteSize s, byteSize s + byteSize t) = t := by
  rw [slice, dropBytes_byteSize, Nat.add_sub_cancel_left, takeBytes_byteSize]

end Text

/-! ### Markers in their places -/

namespace Outline

/-- Every marker lies where the text before it ends, the first gap starting at a byte offset. -/
def Placed : Nat → List Marked → Prop
  | _, [] => True
  | offset, m :: ms =>
      m.marker.place.offset = offset + Text.byteSize m.gap ∧ Placed m.marker.span.2 ms

/-- The scan puts every marker in its place. -/
lemma Scanned.placed {place : Place} {gap s : Text} {o : Outline} {offset : Nat}
    (h : Scanned place gap s o) (hplace : place.offset = offset + Text.byteSize gap.reverse) :
    Placed offset o.marked := by
  induction h generalizing offset with
  | nil => trivial
  | @ordinary place gap s c o _ _ ih =>
      refine ih ?_
      rw [Place.next, hplace, List.reverse_cons, Text.byteSize_append, Text.byteSize_cons,
        Text.byteSize_nil, Nat.add_zero, Nat.add_assoc]
  | @live place gap rest r m o _ hm _ ih =>
      obtain ⟨-, hregion, hmplace⟩ := Region.marker?_eq_some_iff.mp hm
      refine ⟨by rw [hmplace, hplace], ih ?_⟩
      rw [Place.offset_advance, Marker.span, Marker.source, hmplace, hregion]
      rfl
  | @escaped place gap rest r o _ _ _ ih =>
      refine ih ?_
      rw [Place.offset_advance, hplace, List.reverse_append, List.reverse_reverse,
        Text.byteSize_append, Nat.add_assoc]

lemma placed_ofText {source : Text} {o : Outline} (h : ofText source = .ok o) :
    Placed 0 o.marked :=
  (scan_eq_ok_iff.mp h).placed rfl

end Outline

/-- The gaps of marked text with other texts between them, and the tail. -/
def weave (ms : List Marked) (news : List Text) (tail : Text) : Text :=
  (ms.zipWith (fun m new => m.gap ++ new) news).flatten ++ tail

lemma weave_cons (m : Marked) (ms : List Marked) (new : Text) (news : List Text) (tail : Text) :
    weave (m :: ms) (new :: news) tail = m.gap ++ (new ++ weave ms news tail) := by
  simp [weave]

/-- With the texts of the markers between the gaps an outline gives its template. -/
lemma Outline.weave_source (o : Outline) :
    weave o.marked (o.marked.map (·.marker.source)) o.tail = o.source := by
  rw [weave, Outline.source, List.zipWith_map_right, List.zipWith_self, List.flatMap_def]

/-- The first marker of placed ones lies behind its gap, and the others behind the first. -/
lemma Outline.Placed.span_eq {done : Text} {m : Marked} {ms : List Marked}
    (h : Placed (Text.byteSize done) (m :: ms)) :
    m.marker.span = (Text.byteSize (done ++ m.gap),
      Text.byteSize (done ++ m.gap) + Text.byteSize m.marker.source) ∧
    Placed (Text.byteSize (done ++ m.gap ++ m.marker.source)) ms := by
  have hspan : m.marker.span = (Text.byteSize (done ++ m.gap),
      Text.byteSize (done ++ m.gap) + Text.byteSize m.marker.source) := by
    rw [Marker.span, h.1, Text.byteSize_append]
  refine ⟨hspan, ?_⟩
  have hms := h.2
  rwa [hspan, ← Text.byteSize_append] at hms

/-- The text at the span of a placed marker is the marker's own. -/
lemma slice_of_placed {done : Text} (tail : Text) {ms : List Marked}
    (h : Outline.Placed (Text.byteSize done) ms) {m : Marked} (hm : m ∈ ms) :
    Text.slice (done ++ weave ms (ms.map (·.marker.source)) tail) m.marker.span =
      m.marker.source := by
  induction ms generalizing done with
  | nil => simp at hm
  | cons first ms ih =>
      obtain ⟨hspan, hms⟩ := h.span_eq
      rw [List.map_cons, weave_cons, ← List.append_assoc]
      rcases List.mem_cons.mp hm with rfl | hm
      · rw [hspan, Text.slice_append]
      · rw [← List.append_assoc]
        exact ih hms hm

/-- Replacing the spans of placed markers copies the gaps. -/
lemma splice_of_placed {done : Text} (tail : Text) {ms : List Marked} {news : List Text}
    (h : Outline.Placed (Text.byteSize done) ms) (hlen : ms.length = news.length) :
    Text.splice (done ++ weave ms (ms.map (·.marker.source)) tail) (Text.byteSize done)
      ((ms.map (·.marker.span)).zip news) = weave ms news tail := by
  induction ms generalizing done news with
  | nil => simp [weave, Text.splice, Text.dropBytes_byteSize]
  | cons m ms ih =>
      obtain ⟨hspan, hms⟩ := h.span_eq
      cases news with
      | nil => simp at hlen
      | cons new news =>
          have hrest := ih hms (Nat.succ.inj hlen)
          rw [List.map_cons, List.map_cons, List.zip_cons_cons, Text.splice, hspan, weave_cons,
            weave_cons, Text.byteSize_append, Text.slice_append, ← Text.byteSize_append,
            ← Text.byteSize_append, ← List.append_assoc, ← List.append_assoc, hrest,
            List.append_assoc]

namespace Outline

variable {source : Text} {o : Outline}

/-- Replacing the spans of the markers copies the gaps. -/
lemma splice_eq_weave (h : ofText source = .ok o) {news : List Text}
    (hlen : o.marked.length = news.length) :
    source.splice 0 ((o.markers.map Marker.span).zip news) = weave o.marked news o.tail := by
  have hplaced : Placed (Text.byteSize []) o.marked := placed_ofText h
  have hsplice := splice_of_placed o.tail hplaced hlen
  rw [List.nil_append, weave_source, source_ofText h] at hsplice
  rw [markers, List.map_map]
  exact hsplice

/-- The text at the span of a marker is the marker's own. -/
lemma slice_span (h : ofText source = .ok o) {m : Marked} (hm : m ∈ o.marked) :
    source.slice m.marker.span = m.marker.source := by
  have hplaced : Placed (Text.byteSize []) o.marked := placed_ofText h
  have hslice := slice_of_placed o.tail hplaced hm
  rwa [List.nil_append, weave_source, source_ofText h] at hslice

/-- The spans of the markers with their own texts in place give back the template. -/
lemma splice_self (h : ofText source = .ok o) :
    source.splice 0 (o.markers.map fun m => (m.span, source.slice m.span)) = source := by
  have hedits : (o.markers.map fun m => (m.span, source.slice m.span)) =
      (o.markers.map Marker.span).zip (o.marked.map (·.marker.source)) := by
    rw [markers, List.map_map, List.map_map, List.zip_map']
    exact List.map_congr_left fun m hm => congrArg (Prod.mk _) (slice_span h hm)
  rw [hedits, splice_eq_weave h (by simp), weave_source, source_ofText h]

end Outline

/-! ### What the markers become -/

/-- The text that a marker becomes in a dialect. -/
inductive Dialect.Renders (d : Dialect) : Marker → Text → Prop
  | opener {kind : Kind} {args : Text} {place : Place} {a : Arguments}
      (h : Arguments.parse args = .ok a) :
      Renders d (.opener kind args place) (d.renderOpener kind a)
  | ender {kind : Kind} {place : Place} : Renders d (.ender kind place) d.close

/-- A marker that comes in is rendered as the piece that it is. -/
lemma Marker.renders_of_admit_eq_ok {nesting : Nesting} {waiting waiting' : List Waiting}
    {m : Marker} {piece : Piece} {ns : List Nested} (d : Dialect)
    (h : Marker.admit nesting waiting m = .ok (piece, waiting', ns)) :
    d.Renders m (d.renderPiece piece) := by
  cases m with
  | opener kind args place =>
      obtain ⟨a, ha, -, rfl, -⟩ := Marker.admit_opener_eq_ok_iff.mp h
      exact .opener ha
  | ender kind place =>
      obtain ⟨inner, -, -, rfl, -⟩ := Marker.admit_ender_eq_ok_iff.mp h
      exact .ender

namespace Pairing

/-- The pieces of a pairing are the gaps and what the markers become. -/
lemma render_ofMarked {nesting : Nesting} {tail : Text} {waiting : List Waiting}
    {ms : List Marked} {p : Pairing} (d : Dialect)
    (h : ofMarked nesting tail waiting ms = .ok p) :
    ∃ news, List.Forall₂ d.Renders (ms.map (·.marker)) news ∧
      d.render p.pieces = weave ms news tail := by
  induction ms generalizing waiting p with
  | nil =>
      obtain ⟨-, rfl⟩ := ofMarked_nil_eq_ok_iff.mp h
      exact ⟨[], .nil, by simp [weave, Dialect.renderPiece]⟩
  | cons m ms ih =>
      obtain ⟨piece, waiting', ns, rest, hm, hrest, rfl⟩ := ofMarked_cons_eq_ok_iff.mp h
      obtain ⟨news, hnews, hrender⟩ := ih hrest
      refine ⟨d.renderPiece piece :: news, .cons (Marker.renders_of_admit_eq_ok d hm) hnews, ?_⟩
      rw [weave_cons, ← hrender]
      rfl

/-- Where no opener waits, the first marker has to be one. -/
lemma exists_opener {nesting : Nesting} {tail : Text} {ms : List Marked} {p : Pairing}
    (h : ofMarked nesting tail [] ms = .ok p) (hne : ms ≠ []) :
    ∃ kind args place, .opener kind args place ∈ ms.map (·.marker) := by
  cases ms with
  | nil => exact absurd rfl hne
  | cons m ms =>
      obtain ⟨piece, waiting', ns, rest, hm, -, -⟩ := ofMarked_cons_eq_ok_iff.mp h
      cases hmarker : m.marker with
      | opener kind args place => exact ⟨kind, args, place, by simp [hmarker]⟩
      | ender kind place =>
          rw [hmarker] at hm
          obtain ⟨inner, hnil, -⟩ := Marker.admit_ender_eq_ok_iff.mp hm
          simp at hnil

end Pairing

/-! ### The compiled text -/

/-- **The text of a compiled template.**  Without markers it is the template.  Else there is an
opener, and the text is the template with every marker replaced at its own span and with the
preamble in front; the spans with their own texts in place give back the template. -/
theorem compile_splice (d : Dialect) (nesting : Nesting) (source : Text) (o : Outline)
    (h : Outline.ofText source = .ok o) :
    (o.markers = [] → compile d nesting source = .ok ⟨source, []⟩) ∧
    (o.markers ≠ [] → ∀ c, compile d nesting source = .ok c →
      (∃ kind args place, .opener kind args place ∈ o.markers) ∧
      source.splice 0 (o.markers.map fun m => (m.span, source.slice m.span)) = source ∧
      ∃ news, List.Forall₂ d.Renders o.markers news ∧
        c.text = d.preamble ++ source.splice 0 ((o.markers.map Marker.span).zip news)) := by
  constructor
  · intro hnil
    exact compile_eq_ok_iff.mpr ⟨o, h, Or.inl ⟨Outline.markers_eq_nil_iff.mp hnil, rfl⟩⟩
  · intro hne c hc
    have hmarked : o.marked ≠ [] := mt Outline.markers_eq_nil_iff.mpr hne
    obtain ⟨o', ho', hcase⟩ := compile_eq_ok_iff.mp hc
    obtain rfl : o' = o := by simpa [h] using ho'.symm
    rcases hcase with ⟨hnil, -⟩ | ⟨-, p, hp, rfl⟩
    · exact absurd hnil hmarked
    · obtain ⟨news, hnews, hrender⟩ := Pairing.render_ofMarked d hp
      have hlen : o'.marked.length = news.length := by simpa using hnews.length_eq
      refine ⟨Pairing.exists_opener hp hmarked, Outline.splice_self h, news, hnews, ?_⟩
      rw [Outline.splice_eq_weave h hlen]
      exact congrArg _ hrender

/-- A letter of two bytes, an escaped tag without a closing parenthesis, and a block in a block. -/
theorem compile_splice_nested :
    let source : Text := "é@@denies(@allows('x)')a@denies(y, z)b@enddenies@endallows"
    let d : Dialect := Preset.neutral.dialect
    ∃ o c, Outline.ofText source = .ok o ∧ o.markers ≠ [] ∧ compile d .deny source = .ok c ∧
      (∃ kind args place, .opener kind args place ∈ o.markers) ∧
      source.splice 0 (o.markers.map fun m => (m.span, source.slice m.span)) = source ∧
      ∃ news, List.Forall₂ d.Renders o.markers news ∧
        c.text = d.preamble ++ source.splice 0 ((o.markers.map Marker.span).zip news) := by
  intro source d
  have ho : Outline.ofText source = .ok
      ⟨[⟨"é@@denies(", .opener .allows "'x)'" ⟨11, 1, 11⟩⟩,
        ⟨"a", .opener .denies "y, z" ⟨25, 1, 25⟩⟩,
        ⟨"b", .ender .denies ⟨39, 1, 39⟩⟩,
        ⟨"", .ender .allows ⟨49, 1, 49⟩⟩], ""⟩ := by decide +kernel
  have hc : compile d .deny source = .ok
      ⟨"LET enforcer = lookup(\"policies\")\né@@denies(" ++
        "IF enforcer.allows('x)', currentUser()) == true THENa" ++
        "IF enforcer.denies(y, currentUser(), [z]) == true THENbEND IFEND IF", []⟩ := by
    decide +kernel
  exact ⟨_, _, ho, by decide, hc, (compile_splice d .deny source _ ho).2 (by decide) _ hc⟩

end TemplateGuards
