import Mathlib.Tactic.Common
import TemplateGuards.Proofs.Consumption
import TemplateGuards.Proofs.ContentReport
import TemplateGuards.Proofs.FirstFault
import TemplateGuards.Proofs.NestingPolicy

/-!
The positions in a report, counted in the text that it is on.  Each diagnostic points to a live
marker of the kind that its message names, and a position quoted in a message is that of a live
opener earlier in the text.

* `MarkerAt`: a live marker stands at a position;
* `Arranged`: markers that stand at their positions, one after the other, as those of an outline
  do (`Outline.arranged_markers`);
* `Nested.PointsInto`, `Diagnostic.PointsInto`: what a nesting and a diagnostic point to;
* `FaultAt.pointsInto`, `Arranged.pointsInto_of_mem_nestings`: a fault and the nestings of arranged
  markers;
* `compile_eq_error_pointsInto`, `compile_eq_ok_warnings`: one compilation;
* `Compiler.compileContent_pointsInto`: **the diagnostics of a report**, in the order of their
  positions.
-/

namespace TemplateGuards

/-! ### Markers at positions -/

/-- Does a live marker of the tag stand at the position?  The line feeds and the characters before
it are counted, it starts with an `@` that is not behind another, and its word ends. -/
def MarkerAt (source : Text) (tag : Tag) (p : Position) : Prop :=
  ∃ i rest, Starts (source.drop i) tag rest ∧ ¬ BehindAt source i ∧ p = .after (source.take i)

/-- The markers stand in the text at their positions, one after the other. -/
structure Arranged (source : Text) (ms : List Marker) : Prop where
  stands : ∀ m ∈ ms, MarkerAt source m.tag m.position
  ordered : ms.Pairwise fun a b => a.position.Before b.position

variable {source : Text}

/-- Where the region of a marker ends, a literal with the tag of the marker starts it. -/
lemma Marker.exists_starts {m : Marker} {rest : Text} (h : m.region.EndsAt rest) :
    ∃ after, Starts (m.region.source ++ rest) m.tag after := by
  cases m with
  | opener kind args place => exact ⟨args ++ ')' :: rest, by simp [region, Region.source, tag], rfl⟩
  | ender kind place => exact ⟨rest, by simp [region, Region.source, tag], h⟩

/-- The markers of consumed regions are arranged. -/
lemma Consumption.arranged {i j : Nat} {cs : List Consumed} (h : Consumption source i j cs)
    (hj : j ≤ source.length) : Arranged source (cs.filterMap (·.marker? source)) := by
  constructor
  · intro m hm
    obtain ⟨c, hc, hcm⟩ := List.mem_filterMap.mp hm
    obtain ⟨hlive, hregion, hplace⟩ := Region.marker?_eq_some_iff.mp hcm
    obtain ⟨rest, hs, hend⟩ := h.stands c hc
    rw [← hregion] at hs hend
    obtain ⟨after, hstarts⟩ := Marker.exists_starts hend
    refine ⟨c.start, after, hs ▸ hstarts, h.unescaped c hc hlive, ?_⟩
    rw [Marker.position, hplace, Place.position_ofIndex]
  · rw [List.pairwise_filterMap]
    refine h.ordered.imp_of_mem fun {a b} _ hb hab ma hma mb hmb => ?_
    have hlt : a.start < b.start := Nat.lt_of_lt_of_le a.start_lt_stop hab
    have hle : b.start ≤ source.length :=
      Nat.le_trans b.start_lt_stop.le (Nat.le_trans (h.within b hb).2 hj)
    obtain ⟨-, -, hpa⟩ := Region.marker?_eq_some_iff.mp hma
    obtain ⟨-, -, hpb⟩ := Region.marker?_eq_some_iff.mp hmb
    rw [Marker.position, Marker.position, hpa, hpb, Place.position_ofIndex,
      Place.position_ofIndex]
    exact Position.after_take_before hlt hle

/-- The markers of an outline are arranged. -/
lemma Outline.arranged_markers {o : Outline} (h : ofText source = .ok o) :
    Arranged source o.markers := by
  obtain ⟨cs, hreads, hmarkers⟩ := exists_reads h
  rw [hmarkers]
  exact (hreads.consumption quiet_zero).arranged (Nat.le_refl _)

/-- A text without an outline is refused for an opener that stands where the fault says. -/
lemma Outline.exists_unterminated {f : Fault} (h : ofText source = .error f) :
    ∃ kind p, f = .unterminated kind p ∧ MarkerAt source (.opener kind) p := by
  rcases Reads.exists_reads (Nat.zero_le source.length) with
    ⟨cs, hreads⟩ | ⟨cs, i, kind, hreads, hi⟩
  · obtain ⟨o, ho, -⟩ := hreads.ofText_eq_ok
    simp [ho] at h
  · obtain rfl : .unterminated kind (Place.ofIndex source i).position = f := by
      simpa [h] using (hreads.ofText_eq_error hi).symm
    obtain ⟨rest, hs, -⟩ := Sighting.ofText_eq_unterminated_iff.mp hi
    have hstarts : Starts (source.drop i) (.opener kind) rest := ⟨hs, rfl⟩
    refine ⟨kind, _, rfl, i, rest, hstarts, fun hat => ?_, Place.position_ofIndex source i⟩
    exact hreads.quiet quiet_zero hat _ _ hstarts

/-! ### Openers earlier in the text -/

/-- An unmatched opener is one of the markers. -/
lemma exists_mem_of_mem_unmatched {ms : List Marker} {w : Waiting} (h : w ∈ unmatched ms) :
    ∃ m ∈ ms, m.tag = .opener w.kind ∧ m.position = w.position := by
  induction ms with
  | nil => simp [unmatched] at h
  | cons m ms ih =>
      have hrest : w ∈ unmatched ms → ∃ m' ∈ m :: ms, m'.tag = .opener w.kind ∧
          m'.position = w.position := fun hw => by
        obtain ⟨m', hm', heq⟩ := ih hw
        exact ⟨m', List.mem_cons_of_mem m hm', heq⟩
      cases m with
      | opener kind args place =>
          rw [unmatched] at h
          split at h
          · exact hrest h
          · rcases List.mem_append.mp h with hw | hw
            · exact hrest hw
            · obtain rfl := List.mem_singleton.mp hw
              exact ⟨_, List.mem_cons_self, rfl, rfl⟩
      | ender kind place => exact hrest h

lemma mem_of_enclosing?_eq_some {kind : Kind} {waiting : List Waiting} {outer : Waiting}
    (h : enclosing? kind waiting = some outer) : outer ∈ waiting ∧ outer.kind = kind :=
  ⟨List.mem_of_find?_eq_some h, by simpa using List.find?_some h⟩

namespace Arranged

variable {before after : List Marker} {m : Marker}

/-- The openers unmatched before a marker stand earlier in the text. -/
lemma waiting (h : Arranged source (before ++ m :: after)) {w : Waiting}
    (hw : w ∈ unmatched before) :
    MarkerAt source (.opener w.kind) w.position ∧ w.position.Before m.position := by
  obtain ⟨m', hm', htag, hpos⟩ := exists_mem_of_mem_unmatched hw
  rw [← htag, ← hpos]
  exact ⟨h.stands m' (List.mem_append_left _ hm'),
    (List.pairwise_append.mp h.ordered).2.2 m' hm' m List.mem_cons_self⟩

lemma marker (h : Arranged source (before ++ m :: after)) : MarkerAt source m.tag m.position :=
  h.stands m (List.mem_append_right _ List.mem_cons_self)

end Arranged

/-! ### What diagnostics point to -/

/-- Does the nesting point to an opener of its kind, and to another one before it? -/
structure Nested.PointsInto (source : Text) (n : Nested) : Prop where
  inner : MarkerAt source (.opener n.kind) n.position
  outer : MarkerAt source (.opener n.kind) n.outer
  before : n.outer.Before n.position

/-- **What a diagnostic points to**, by its code: a live marker of the kind that its message names.
A position quoted in the message points to a live opener before it. -/
inductive Diagnostic.PointsInto (source : Text) (d : Diagnostic) : Prop
  | opener {code : Code} {kind : Kind}
      (hmem : code ∈ [Code.unterminatedDirective, .emptyPolicy, .emptyArgument, .unclosedDirective])
      (hcode : d.code = Named.name code) (hmessage : ("@" ++ kind.name ++ " " : Text) <+: d.message)
      (marker : MarkerAt source (.opener kind) d.position)
  | nested {kind : Kind} {outer : Position} (hcode : d.code = Named.name Code.nestedDirective)
      (hmessage : d.message = "@" ++ kind.name ++ " is nested inside @" ++ kind.name ++
        " opened at " ++ outer.toText)
      (points : Nested.PointsInto source ⟨kind, d.position, outer⟩)
  | unexpectedEnd {kind : Kind} (hcode : d.code = Named.name Code.unexpectedEnd)
      (hmessage : d.message = "@end" ++ kind.name ++ " has no matching @" ++ kind.name)
      (marker : MarkerAt source (.ender kind) d.position)
  | mismatchedEnd {expected found : Kind} {opened : Position}
      (hcode : d.code = Named.name Code.mismatchedEnd)
      (hmessage : d.message = "@end" ++ found.name ++ " cannot close @" ++ expected.name ++
        " opened at " ++ opened.toText)
      (marker : MarkerAt source (.ender found) d.position)
      (opener : MarkerAt source (.opener expected) opened) (before : opened.Before d.position)

/-- A message that starts with the opener's name names its kind. -/
lemma Kind.name_leads (kind : Kind) {said : Text} (h : (" " : Text) <+: said) :
    ("@" ++ kind.name ++ " " : Text) <+: "@" ++ kind.name ++ said :=
  (List.prefix_append_right_inj _).mpr h

/-- A warning points where its nesting does. -/
lemma Nested.PointsInto.ofNested {n : Nested} (h : n.PointsInto source) :
    (Diagnostic.ofNested n).PointsInto source :=
  .nested rfl rfl h

/-- The fault of a denied nesting does too. -/
lemma Nested.PointsInto.ofFault {n : Nested} (h : n.PointsInto source) :
    (Diagnostic.ofFault (.nested n)).PointsInto source :=
  .nested rfl rfl h

/-- An unmatched opener before a marker of its kind is a nesting. -/
lemma Arranged.nested {before after : List Marker} {m : Marker}
    (h : Arranged source (before ++ m :: after)) {kind : Kind} (hm : m.tag = .opener kind)
    {outer : Waiting} (henc : enclosing? kind (unmatched before) = some outer) :
    Nested.PointsInto source ⟨kind, m.position, outer.position⟩ := by
  obtain ⟨hmem, hkind⟩ := mem_of_enclosing?_eq_some henc
  obtain ⟨hopener, hbefore⟩ := h.waiting hmem
  exact ⟨hm ▸ h.marker, hkind ▸ hopener, hbefore⟩

/-- **The fault of a marker** among arranged ones points to the marker. -/
lemma FaultAt.pointsInto {nesting : Nesting} {before after : List Marker} {m : Marker} {f : Fault}
    (hf : FaultAt nesting before m f) (h : Arranged source (before ++ m :: after)) :
    (Diagnostic.ofFault f).PointsInto source := by
  have hm := h.marker
  cases hf with
  | @emptyPolicy kind =>
      exact .opener (by simp : Code.emptyPolicy ∈ _) rfl (kind.name_leads (by decide)) hm
  | @emptyArgument kind =>
      exact .opener (by simp : Code.emptyArgument ∈ _) rfl
        ((kind.name_leads (by decide)).trans (List.prefix_append _ _)) hm
  | nested _ _ henc => exact (h.nested rfl henc).ofFault
  | unexpectedEnd => exact .unexpectedEnd rfl rfl hm
  | mismatchedEnd hwaiting =>
      obtain ⟨hopener, hbefore⟩ := h.waiting (hwaiting ▸ List.mem_cons_self)
      exact .mismatchedEnd rfl rfl hm hopener hbefore

/-- The fault of an opener without a parenthesis points to the opener. -/
lemma Diagnostic.pointsInto_unterminated {kind : Kind} {p : Position}
    (h : MarkerAt source (.opener kind) p) :
    (ofFault (.unterminated kind p)).PointsInto source :=
  .opener (by simp : Code.unterminatedDirective ∈ _) rfl (kind.name_leads (by decide)) h

/-- The fault of an opener without an end marker does too. -/
lemma Diagnostic.pointsInto_unclosed {kind : Kind} {p : Position}
    (h : MarkerAt source (.opener kind) p) :
    (ofFault (.unclosed kind p)).PointsInto source :=
  .opener (by simp : Code.unclosedDirective ∈ _) rfl
    ((kind.name_leads (by decide)).trans (List.prefix_append _ _)) h

/-! ### One compilation -/

/-- **The fault of a text** points into it. -/
lemma compile_eq_error_pointsInto {d : Dialect} {nesting : Nesting} {f : Fault}
    (h : compile d nesting source = .error f) : (Diagnostic.ofFault f).PointsInto source := by
  cases ho : Outline.ofText source with
  | error f' =>
      obtain rfl : f' = f := by simpa [compile_of_ofText_eq_error ho] using h
      obtain ⟨kind, p, rfl, hp⟩ := Outline.exists_unterminated ho
      exact Diagnostic.pointsInto_unterminated hp
  | ok o =>
      have harranged := Outline.arranged_markers ho
      have hpairing : Pairing.ofMarked nesting o.tail [] o.marked = .error f := by
        rw [compile_of_ofText_eq_ok ho, Pairing.ofOutline] at h
        cases hp : Pairing.ofMarked nesting o.tail [] o.marked <;> simp_all [Except.map]
      rcases Pairing.ofMarked_eq_error_iff.mp hpairing with
        ⟨before, m, after, waiting, ns, hms, hrun, hf⟩ | ⟨inner, outer, ns, hrun, rfl⟩
      · obtain rfl := hrun.unmatched_eq
        rw [Outline.markers, hms] at harranged
        exact (Marker.admit_eq_error_iff.mp hf).pointsInto harranged
      · have hmem : inner ∈ unmatched o.markers := by
          rw [Outline.markers, hrun.unmatched_eq]
          exact List.mem_cons_self
        obtain ⟨m, hm, htag, hpos⟩ := exists_mem_of_mem_unmatched hmem
        exact Diagnostic.pointsInto_unclosed (htag ▸ hpos ▸ harranged.stands m hm)

/-- A nesting is at its marker, inside the innermost opener of the kind that waits. -/
lemma Marker.exists_of_nesting?_eq_some {m : Marker} {waiting : List Waiting} {n : Nested}
    (h : m.nesting? waiting = some n) : m.tag = .opener n.kind ∧ n.position = m.position ∧
      ∃ outer, enclosing? n.kind waiting = some outer ∧ n.outer = outer.position := by
  cases m with
  | opener kind args place =>
      obtain ⟨outer, henc, rfl⟩ := Option.map_eq_some_iff.mp h
      exact ⟨rfl, rfl, outer, henc, rfl⟩
  | ender kind place => cases h

/-- The nestings of arranged markers point into the text. -/
lemma Arranged.pointsInto_of_mem_nestings {before ms : List Marker}
    (h : Arranged source (before ++ ms)) {n : Nested} (hn : n ∈ nestings before ms) :
    n.PointsInto source := by
  induction ms generalizing before with
  | nil => simp [nestings] at hn
  | cons m ms ih =>
      rcases List.mem_append.mp hn with hn | hn
      · obtain ⟨kind, position, outer⟩ := n
        obtain ⟨htag, rfl, w, henc, rfl⟩ :=
          Marker.exists_of_nesting?_eq_some (Option.mem_toList.mp hn)
        exact h.nested htag henc
      · exact ih (by simpa using h) hn

/-- Each marker makes at most one nesting, at its own position. -/
lemma map_position_nestings_sublist (before ms : List Marker) :
    ((nestings before ms).map (·.position)).Sublist (ms.map (·.position)) := by
  induction ms generalizing before with
  | nil => exact .slnil
  | cons m ms ih =>
      rw [nestings]
      cases hn : m.nesting? (unmatched before) with
      | none => exact (ih (before ++ [m])).cons m.position
      | some n =>
          have hpos : n.position = m.position := (Marker.exists_of_nesting?_eq_some hn).2.1
          rw [Option.toList_some, List.singleton_append, List.map_cons, List.map_cons, hpos]
          exact (ih (before ++ [m])).cons_cons m.position

/-- The warnings of a compilation are nestings of its markers. -/
lemma exists_warnings_sublist {d : Dialect} {nesting : Nesting} {c : Compiled}
    (h : compile d nesting source = .ok c) :
    ∃ o, Outline.ofText source = .ok o ∧ c.warnings.Sublist (nestings [] o.markers) := by
  obtain ⟨o, p, ho, hp, rfl⟩ := exists_pairing_of_compile_eq_ok h
  refine ⟨o, ho, ?_⟩
  rw [Pairing.ofOutline] at hp
  rcases Pairing.ofMarked_cases .nil o.tail o.marked with
    ⟨f, hallow, hwarn, hdeny⟩ | ⟨pieces, hallow, hwarn, hdeny⟩
  · cases nesting with
    | allow => simp [hallow] at hp
    | warn => simp [hwarn] at hp
    | deny => rcases hdeny with hd | ⟨n, ns, -, hd⟩ <;> simp [hd] at hp
  · cases nesting with
    | allow =>
        obtain rfl : ⟨pieces, []⟩ = p := by simpa [hallow] using hp
        exact List.nil_sublist _
    | warn =>
        obtain rfl : ⟨pieces, _⟩ = p := by simpa [hwarn] using hp
        exact .refl _
    | deny =>
        rw [hdeny] at hp
        split at hp
        · obtain rfl : ⟨pieces, []⟩ = p := by simpa using hp
          exact List.nil_sublist _
        · cases hp

/-- **The warnings of a text** point into it, and come in the order of their positions. -/
lemma compile_eq_ok_warnings {d : Dialect} {nesting : Nesting} {c : Compiled}
    (h : compile d nesting source = .ok c) :
    (∀ n ∈ c.warnings, n.PointsInto source) ∧
      c.warnings.Pairwise fun a b => a.position.Before b.position := by
  obtain ⟨o, ho, hsub⟩ := exists_warnings_sublist h
  have harranged := Outline.arranged_markers ho
  refine ⟨fun n hn => harranged.pointsInto_of_mem_nestings (hsub.subset hn), ?_⟩
  have hpositions : (o.markers.map (·.position)).Pairwise Position.Before :=
    List.pairwise_map.mpr harranged.ordered
  have hnestings := hpositions.sublist (map_position_nestings_sublist [] o.markers)
  exact (List.pairwise_map.mp hnestings).sublist hsub

/-! ### Reports -/

namespace Diagnostic

/-- Positions decide the order of diagnostics. -/
lemma compare_of_before {a b : Diagnostic} (h : a.position.Before b.position) :
    compare a b = .lt := by
  rcases h with hline | ⟨hline, hcolumn⟩
  · simp [compare, Nat.compare_eq_lt.mpr hline]
  · simp [compare, hline, Nat.compare_eq_lt.mpr hcolumn]

/-- Diagnostics whose positions increase are sorted. -/
lemma sort_eq_self {ds : List Diagnostic}
    (h : ds.Pairwise fun a b => a.position.Before b.position) : sort ds = ds :=
  List.mergeSort_of_pairwise (h.imp fun hab => by simp [compare_of_before hab])

end Diagnostic

/-- The compiler of a configuration runs the authorization directives alone. -/
lemma Compiler.exists_chain_of_ofConfig {config : Config} {c : Compiler}
    (h : Compiler.ofConfig config = .ok c) :
    ∃ d, c.chain = [.authorization d config.nesting] := by
  obtain ⟨d, -, hc⟩ := bind_eq_ok_iff.mp h
  cases hc
  exact ⟨d, rfl⟩

/-- One extension alone is run for its own text and warnings. -/
lemma Extension.runAll_singleton (e : Extension) (source : Text) :
    runAll [e] source = (e.run source).mapError fun fault => ⟨e.id, fault⟩ := by
  rw [runAll]
  cases e.run source with
  | error fault => rfl
  | ok first =>
      simp [runAll, Compiled.unchanged, bind, Except.bind, pure, Except.pure, Except.mapError]

/-- **The positions in a report.**  Every diagnostic on a text points to a live marker of the kind
that its message names, where the position is counted in the text itself; a position quoted in the
message points to a live opener before it.  The positions strictly increase, so that the sort
leaves the warnings in the order in which they were given. -/
theorem Compiler.compileContent_pointsInto (config : Config) (c : Compiler) (path content : Text)
    (h : Compiler.ofConfig config = .ok c) :
    let ds := (c.compileContent path content).diagnostics
    (∀ d ∈ ds, d.PointsInto content) ∧
      (ds.Pairwise fun a b => a.position.Before b.position) ∧
      ∀ compiled, Extension.runAll c.chain content = .ok compiled →
        ds = compiled.warnings.map .ofNested := by
  intro ds
  obtain ⟨d, hchain⟩ := Compiler.exists_chain_of_ofConfig h
  have hrun : Extension.runAll c.chain content =
      (compile d config.nesting content).mapError fun fault => ⟨"authorization", fault⟩ := by
    rw [hchain, Extension.runAll_singleton]
    rfl
  cases hcompile : compile d config.nesting content with
  | error f =>
      have hfail : Extension.runAll c.chain content = .error ⟨"authorization", f⟩ := by
        rw [hrun, hcompile]
        rfl
      have hds : ds = [.ofFault f] := by
        simp [ds, compileContent, Report.ofContent, hfail]
      refine ⟨?_, hds ▸ List.pairwise_singleton _ _, fun compiled hc => ?_⟩
      · rw [hds, List.forall_mem_singleton]
        exact compile_eq_error_pointsInto hcompile
      · rw [hfail] at hc
        cases hc
  | ok compiled =>
      have hok : Extension.runAll c.chain content = .ok compiled := by
        rw [hrun, hcompile]
        rfl
      obtain ⟨hpoints, hordered⟩ := compile_eq_ok_warnings hcompile
      have hsorted : (compiled.warnings.map Diagnostic.ofNested).Pairwise
          fun a b => a.position.Before b.position := List.pairwise_map.mpr hordered
      have hds : ds = compiled.warnings.map .ofNested := by
        simp [ds, compileContent, Report.ofContent, hok, Diagnostic.sort_eq_self hsorted]
      refine ⟨?_, hds ▸ hsorted, fun compiled' hc => ?_⟩
      · rw [hds, List.forall_mem_map]
        exact fun n hn => (hpoints n hn).ofNested
      · cases hok.symm.trans hc
        exact hds

/-- Two nestings on two lines, the first behind a letter of two bytes. -/
theorem Compiler.compileContent_pointsInto_nested :
    let config : Config := { Config.default with nesting? := some .warn }
    let c : Compiler := ⟨[.authorization Preset.blade.dialect .warn], config⟩
    let content : Text := "\n@allows(p)é@allows(q)\n @allows(r)@endallows@endallows@endallows"
    let ds := (c.compileContent "a" content).diagnostics
    Compiler.ofConfig config = .ok c ∧
    ds = [.ofNested ⟨.allows, ⟨2, 12⟩, ⟨2, 1⟩⟩, .ofNested ⟨.allows, ⟨3, 2⟩, ⟨2, 12⟩⟩] ∧
    (∀ d ∈ ds, d.PointsInto content) ∧
    (ds.Pairwise fun a b => a.position.Before b.position) ∧
    ∀ compiled, Extension.runAll c.chain content = .ok compiled →
      ds = compiled.warnings.map .ofNested := by
  intro config c content ds
  have hconfig : Compiler.ofConfig config = .ok c := rfl
  obtain ⟨hpoints, hordered, hwarnings⟩ := compileContent_pointsInto config c "a" content hconfig
  refine ⟨hconfig, ?_, hpoints, hordered, hwarnings⟩
  have hrun : (Extension.runAll c.chain content >>= fun compiled => .ok compiled.warnings) =
      .ok [⟨.allows, ⟨2, 12⟩, ⟨2, 1⟩⟩, ⟨.allows, ⟨3, 2⟩, ⟨2, 12⟩⟩] := by decide +kernel
  obtain ⟨compiled, hcompiled, heq⟩ := bind_eq_ok_iff.mp hrun
  exact (hwarnings compiled hcompiled).trans (congrArg _ (Except.ok.inj heq))

end TemplateGuards
