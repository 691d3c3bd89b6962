import TemplateGuards.Proofs.ParenthesisDepth
import TemplateGuards.Proofs.Relocation

/-!
Two templates one after the other.  Where the first one ends with a line and has no escaped
opener, the two do not see each other: their outlines follow each other, and so do their
compiled texts and their warnings.

* `SelfContained`: a text that what follows cannot change, which its ends are too
  (`SelfContained.of_append`);
* `Region.EndsAt.append`, `Sighting.ofText_append_of_ordinary`: what is seen in such a text is seen
  with anything behind it;
* `Outline.append`: one outline after another;
* `Outline.Scanned.append`, `Outline.ofText_append`: the outline of two templates;
* `Pairing.ofMarked_append`: the pairing of two outlines;
* `compile_append`: the compilation of two templates.
-/

namespace TemplateGuards

/-! ### Texts that end with a line -/

/-- A text ends with its last line, and no opener is escaped in it. -/
structure SelfContained (s : Text) : Prop where
  line : s ≠ [] → ['\n'] <:+ s
  plain : ∀ kind, ¬ '@' :: '@' :: (Tag.opener kind).word <:+: s

/-- The ends of such a text are such texts. -/
lemma SelfContained.of_append {s t : Text} (h : SelfContained (s ++ t)) : SelfContained t where
  line hne := List.suffix_of_suffix_length_le (h.line (by simp [hne])) (List.suffix_append s t)
    (List.length_pos_iff.mpr hne)
  plain kind hin := h.plain kind (hin.trans (List.suffix_append s t).isInfix)

/-- Behind a text without a line feed the line still has to end. -/
lemma ne_nil_of_line {s t : Text} (h : ['\n'] <:+ s ++ t) (hs : '\n' ∉ s) : t ≠ [] := by
  rintro rfl
  rw [List.append_nil] at h
  exact hs (h.subset (List.mem_singleton_self _))

namespace Tag

lemma newline_not_mem_word (tag : Tag) : '\n' ∉ '@' :: tag.word := by
  rcases tag with ⟨_ | _⟩ | ⟨_ | _⟩ <;> decide

/-- Whether a tag is at a boundary is seen in the first character behind it. -/
lemma admits_append {s : Text} (hne : s ≠ []) (tag : Tag) (t : Text) :
    tag.admits (s ++ t) = tag.admits s := by
  obtain ⟨c, cs, rfl⟩ := List.exists_cons_of_ne_nil hne
  cases tag <;> rfl

end Tag

/-- No literal reaches over the end of a line. -/
lemma Starts.of_append {s t after : Text} {tag : Tag} (hline : ['\n'] <:+ s)
    (h : Starts (s ++ t) tag after) : ∃ rest, Starts s tag rest := by
  obtain ⟨heq, hadm⟩ := h
  rw [← List.cons_append] at heq
  rcases List.append_eq_append_iff.mp heq with ⟨u, hword, -⟩ | ⟨rest, rfl, rfl⟩
  · have hmem : '\n' ∈ '@' :: tag.word :=
      hword ▸ List.mem_append_left u (hline.subset (List.mem_singleton_self _))
    exact absurd hmem tag.newline_not_mem_word
  · refine ⟨rest, rfl, ?_⟩
    rwa [Tag.admits_append (ne_nil_of_line hline tag.newline_not_mem_word)] at hadm

/-! ### What is seen in a self-contained text -/

section Seen

variable {s rest : Text} {r : Region}

/-- A region ends where it ends, whatever follows the line. -/
lemma Region.EndsAt.append (h : r.EndsAt rest) (hs : SelfContained (r.source ++ rest))
    (t : Text) : r.EndsAt (rest ++ t) := by
  have hne : r.source ≠ [] := List.ne_nil_of_length_pos (Sighting.length_source_pos r)
  have hline : ['\n'] <:+ r.source ++ rest := hs.line (by simp [hne])
  cases r with
  | opener kind args => exact firstClosing_iff_leads.mpr (firstClosing_iff_leads.mp h)
  | ender kind =>
      have hrest : rest ≠ [] := ne_nil_of_line hline (Tag.ender kind).newline_not_mem_word
      exact (Tag.admits_append hrest _ t).trans h
  | escapedOpener kind args? =>
      cases args? with
      | none => exact absurd (List.prefix_append _ rest).isInfix (hs.plain kind)
      | some args => exact firstClosing_iff_leads.mpr (firstClosing_iff_leads.mp h)
  | escapedEnder kind =>
      have hword : '\n' ∉ '@' :: '@' :: (Tag.ender kind).word := by
        simpa using (Tag.ender kind).newline_not_mem_word
      exact (Tag.admits_append (ne_nil_of_line hline hword) _ t).trans h

namespace Sighting

/-- Ordinary text stays ordinary, whatever follows. -/
lemma ofText_append_of_ordinary {c : Char} (hs : SelfContained (c :: s))
    (h : ofText (c :: s) = ordinary) (t : Text) : ofText (c :: (s ++ t)) = ordinary := by
  have hline : ['\n'] <:+ c :: s := hs.line (List.cons_ne_nil c s)
  rcases ofText_cases (c :: (s ++ t)) with ho | ⟨tag, after, hstarts⟩ | ⟨u, tag, after, hu, hstarts⟩
  · exact ho
  · obtain ⟨rest, hrest⟩ := Starts.of_append (s := c :: s) hline hstarts
    exact absurd hrest (not_starts_of_ordinary h tag rest)
  · obtain ⟨rfl, rfl⟩ := List.cons.inj hu
    have hne : s ≠ [] := ne_nil_of_line (s := ['@']) hline (by decide)
    obtain ⟨rest, hrest⟩ := Starts.of_append
      ((SelfContained.of_append (s := ['@']) hs).line hne) hstarts
    exact absurd hrest (not_starts_tail_of_ordinary h tag rest)

end Sighting

end Seen

/-! ### Outlines one after the other -/

namespace Outline

/-- The outline with more text at its start. -/
def prepend (t : Text) (o : Outline) : Outline :=
  match o.marked with
  | [] => ⟨[], t ++ o.tail⟩
  | m :: ms => ⟨⟨t ++ m.gap, m.marker⟩ :: ms, o.tail⟩

/-- One outline after another. -/
def append (o o' : Outline) : Outline :=
  ⟨o.marked ++ (o'.prepend o.tail).marked, (o'.prepend o.tail).tail⟩

instance : Append Outline := ⟨append⟩

lemma markers_prepend (t : Text) (o : Outline) : (o.prepend t).markers = o.markers := by
  obtain ⟨marked, tail⟩ := o
  cases marked <;> rfl

lemma markers_append (o o' : Outline) : (o ++ o').markers = o.markers ++ o'.markers := by
  have happend : (o ++ o').markers = o.markers ++ (o'.prepend o.tail).markers := List.map_append
  rw [happend, markers_prepend]

lemma prepend_mark (t gap : Text) (m : Marker) (o : Outline) :
    (o.mark gap m).prepend t = o.mark (t ++ gap) m := rfl

/-- What stands in the gap when the scan starts comes out at its start. -/
lemma Scanned.prepend {place : Place} {gap s : Text} {o : Outline} (before : Text)
    (h : Scanned place gap s o) : Scanned place (gap ++ before) s (o.prepend before.reverse) := by
  induction h with
  | nil place gap =>
      rw [Outline.prepend, ← List.reverse_append]
      exact .nil place _
  | ordinary hc _ ih => exact .ordinary hc ih
  | live hend hm h _ =>
      rw [prepend_mark, ← List.reverse_append]
      exact .live hend hm h
  | escaped hend hm _ ih =>
      rw [List.append_assoc] at ih
      exact .escaped hend hm ih

/-- **The scan of a self-contained text** is the same with anything behind it: the marker of each
region is set as before, and the scan of the rest starts with the gap left over. -/
lemma Scanned.append {place : Place} {gap s after : Text} {o o' : Outline}
    (h : Scanned place gap s o) (hs : SelfContained s)
    (h' : Scanned (place.advance s) o.tail.reverse after o') :
    Scanned place gap (s ++ after) ⟨o.marked ++ o'.marked, o'.tail⟩ := by
  induction h with
  | nil place gap => simpa using h'
  | @ordinary place gap s c o hc _ ih =>
      have hthere := Sighting.ofText_append_of_ordinary hs hc after
      exact .ordinary hthere (ih (SelfContained.of_append (s := [c]) hs) h')
  | @live place gap rest r m o hend hm _ ih =>
      rw [Place.advance_append] at h'
      rw [List.append_assoc]
      exact .live (hend.append hs after) hm (ih hs.of_append h')
  | @escaped place gap rest r o hend hm _ ih =>
      rw [Place.advance_append] at h'
      rw [List.append_assoc]
      exact .escaped (hend.append hs after) hm (ih hs.of_append h')

/-- **The outline of two templates** is the outline of the one, then that of the other behind the
lines of the one. -/
lemma ofText_append {s s' : Text} {o o' : Outline} (hs : SelfContained s)
    (h : ofText s = .ok o) (h' : ofText s' = .ok o') :
    ofText (s ++ s') = .ok (o ++ o'.behind s) := by
  have hstart : Place.start.advance s = Place.start.behind s := by
    cases s with
    | nil => rfl
    | cons c t => exact Place.start_advance_of_line (hs.line (List.cons_ne_nil c t))
  have hrest : Scanned (Place.start.advance s) o.tail.reverse s' ((o'.behind s).prepend o.tail) := by
    have hprepend := ((scan_eq_ok_iff.mp h').behind s).prepend o.tail.reverse
    rwa [List.reverse_reverse, List.nil_append, ← hstart] at hprepend
  exact scan_eq_ok_iff.mpr ((scan_eq_ok_iff.mp h).append hs hrest)

end Outline

/-! ### Pairings one after the other -/

namespace Pairing

variable {nesting : Nesting} {o o' : Outline} {p p' : Pairing}

/-- More text at the start of an outline is more text at the start of its pairing. -/
lemma ofOutline_prepend (h : ofOutline nesting o = .ok p) (t : Text) :
    ∃ q, ofOutline nesting (o.prepend t) = .ok q ∧ q.warnings = p.warnings ∧
      ∀ d : Dialect, d.render q.pieces = t ++ d.render p.pieces := by
  obtain ⟨marked, tail⟩ := o
  cases marked with
  | nil =>
      obtain ⟨-, rfl⟩ := ofMarked_nil_eq_ok_iff.mp h
      exact ⟨⟨[.text (t ++ tail)], []⟩, rfl, rfl, fun d => by simp [Dialect.renderPiece]⟩
  | cons m ms =>
      obtain ⟨piece, waiting', ns, rest, hm, hrest, rfl⟩ := ofMarked_cons_eq_ok_iff.mp h
      exact ⟨_, ofMarked_cons_eq_ok_iff.mpr ⟨piece, waiting', ns, rest, hm, hrest, rfl⟩, rfl,
        fun d => by simp [Dialect.renderPiece]⟩

/-- **The pairing of two outlines.**  After the first no opener waits, so that the second is paired
as if it stood alone. -/
lemma ofMarked_append {tail : Text} {waiting : List Waiting} {ms : List Marked}
    (h : ofMarked nesting tail waiting ms = .ok p) (h' : ofOutline nesting o' = .ok p') :
    ∃ q, ofMarked nesting (o'.prepend tail).tail waiting (ms ++ (o'.prepend tail).marked) = .ok q ∧
      q.warnings = p.warnings ++ p'.warnings ∧
      ∀ d : Dialect, d.render q.pieces = d.render p.pieces ++ d.render p'.pieces := by
  induction ms generalizing waiting p with
  | nil =>
      obtain ⟨rfl, rfl⟩ := ofMarked_nil_eq_ok_iff.mp h
      obtain ⟨q, hq, hwarnings, hrender⟩ := ofOutline_prepend h' tail
      exact ⟨q, hq, hwarnings, fun d => by simp [hrender, Dialect.renderPiece]⟩
  | cons m ms ih =>
      obtain ⟨piece, waiting', ns, rest, hm, hrest, rfl⟩ := ofMarked_cons_eq_ok_iff.mp h
      obtain ⟨q, hq, hwarnings, hrender⟩ := ih hrest
      refine ⟨_, ofMarked_cons_eq_ok_iff.mpr ⟨piece, waiting', ns, q, hm, hq, rfl⟩, ?_, fun d => ?_⟩
      · rw [hwarnings, List.append_assoc]
      · simp [hrender]

end Pairing

/-! ### Compiling two templates -/

/-- **Compilation is local.**  A template that ends with a line and has no escaped opener, and any
other behind it, compile to what they compile to alone, the one after the other, with the preamble
once in front of both; the warnings of the other are moved down by the lines of the first. -/
theorem compile_append (d : Dialect) (nesting : Nesting) (s s' : Text) (c c' : Compiled)
    (hline : ['\n'] <:+ s) (hplain : ∀ kind, ¬ '@' :: '@' :: (Tag.opener kind).word <:+: s)
    (hc : compile d nesting s = .ok c) (hc' : compile d nesting s' = .ok c') :
    ∃ o o' t t', Outline.ofText s = .ok o ∧ Outline.ofText s' = .ok o' ∧
      c.text = (if o.markers = [] then [] else d.preamble) ++ t ∧
      c'.text = (if o'.markers = [] then [] else d.preamble) ++ t' ∧
      compile d nesting (s ++ s') =
        .ok ⟨(if o.markers = [] ∧ o'.markers = [] then [] else d.preamble) ++ (t ++ t'),
          c.warnings ++ c'.warnings.map (Nested.down (s.count '\n'))⟩ := by
  have hs : SelfContained s := ⟨fun _ => hline, hplain⟩
  obtain ⟨o, p, ho, hp, rfl⟩ := exists_pairing_of_compile_eq_ok hc
  obtain ⟨o', p', ho', hp', rfl⟩ := exists_pairing_of_compile_eq_ok hc'
  have hbehind : Pairing.ofOutline nesting (o'.behind s) =
      .ok ⟨p'.pieces, p'.warnings.map (Nested.down (s.count '\n'))⟩ :=
    Pairing.ofMarked_behind s hp'
  obtain ⟨q, hq, hwarnings, hrender⟩ := Pairing.ofMarked_append hp hbehind
  have hq' : Pairing.ofOutline nesting (o ++ o'.behind s) = .ok q := hq
  have hmarkers : (o ++ o'.behind s).markers = [] ↔ o.markers = [] ∧ o'.markers = [] := by
    simp [Outline.markers_append, Outline.behind]
  refine ⟨o, o', d.render p.pieces, d.render p'.pieces, ho, ho', rfl, rfl, ?_⟩
  rw [compile_of_ofText_eq_ok (Outline.ofText_append hs ho ho'), hq', Except.map, hwarnings,
    hrender]
  simp only [hmarkers]

/-- An opener with its arguments on two lines, and behind it a block in a block. -/
theorem compile_append_nested :
    let s : Text := "@allows(x,\n y)@@endallows@endallows\n"
    let s' : Text := "a\n@denies(z)\n@denies(w)@enddenies@enddenies"
    let d : Dialect := Preset.neutral.dialect
    ∃ c c', compile d .warn s = .ok c ∧ compile d .warn s' = .ok c' ∧
      c'.warnings = [⟨.denies, ⟨3, 1⟩, ⟨2, 1⟩⟩] ∧
      ∃ o o' t t', Outline.ofText s = .ok o ∧ Outline.ofText s' = .ok o' ∧
        c.text = (if o.markers = [] then [] else d.preamble) ++ t ∧
        c'.text = (if o'.markers = [] then [] else d.preamble) ++ t' ∧
        compile d .warn (s ++ s') =
          .ok ⟨(if o.markers = [] ∧ o'.markers = [] then [] else d.preamble) ++ (t ++ t'),
            [⟨.denies, ⟨5, 1⟩, ⟨4, 1⟩⟩]⟩ := by
  intro s s' d
  have hline : ['\n'] <:+ s := by decide +kernel
  have hplain : ∀ kind, ¬ '@' :: '@' :: (Tag.opener kind).word <:+: s := by
    rintro (_ | _) <;> decide +kernel
  have hc : compile d .warn s = .ok ⟨"LET enforcer = lookup(\"policies\")\n" ++
      "IF enforcer.allows(x, currentUser(), [y]) == true THEN@@endallowsEND IF\n", []⟩ := by
    decide +kernel
  have hc' : compile d .warn s' = .ok ⟨"LET enforcer = lookup(\"policies\")\n" ++
      "a\nIF enforcer.denies(z, currentUser()) == true THEN\n" ++
      "IF enforcer.denies(w, currentUser()) == true THENEND IFEND IF",
      [⟨.denies, ⟨3, 1⟩, ⟨2, 1⟩⟩]⟩ := by
    decide +kernel
  have hlines : s.count '\n' = 2 := by decide +kernel
  have happend := compile_append d .warn s s' _ _ hline hplain hc hc'
  rw [hlines] at happend
  exact ⟨_, _, hc, hc', rfl, happend⟩

end TemplateGuards
