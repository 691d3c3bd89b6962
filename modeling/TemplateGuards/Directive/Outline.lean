import TemplateGuards.Directive.Arguments
import TemplateGuards.Directive.Fault
import TemplateGuards.Directive.Region

/-!
The outline of a template: its markers in source order, each with the ordinary text before it,
and the text after the last one.  Escaped regions are ordinary text here.

* `Marker`: an opener or an end marker, with the place of its `@`;
* `Outline.ofText`: the outline of a template, or the fault of an opener without an end;
* `Outline.source_ofText`: an outline holds all of its template.
-/

namespace TemplateGuards

/-- A live marker. -/
inductive Marker
  /-- An opener with the text between its parentheses. -/
  | opener (kind : Kind) (args : Text) (place : Place)
  /-- An end marker. -/
  | ender (kind : Kind) (place : Place)
deriving DecidableEq, Repr

namespace Marker

/-- The place of a marker's `@`. -/
def place : Marker → Place
  | opener _ _ p => p
  | ender _ p => p

/-- The position of a marker's `@`. -/
def position (m : Marker) : Position := m.place.position

/-- The region that a marker takes up. -/
def region : Marker → Region
  | opener k args _ => .opener k args
  | ender k _ => .ender k

/-- The text of a marker. -/
def source (m : Marker) : Text := m.region.source

/-- The byte offsets at which a marker starts and before which it ends. -/
def span (m : Marker) : Nat × Nat := (m.place.offset, m.place.offset + m.source.byteSize)

end Marker

/-- The marker that a region is, if it is live. -/
def Region.marker? (place : Place) : Region → Option Marker
  | opener kind args => some (.opener kind args place)
  | ender kind => some (.ender kind place)
  | escapedOpener .. => none
  | escapedEnder _ => none

/-- A marker and the ordinary text between it and the marker before it. -/
structure Marked where
  gap : Text
  marker : Marker
deriving DecidableEq, Repr

/-- The markers of a template with the text before each, and the text after the last. -/
structure Outline where
  marked : List Marked
  tail : Text
deriving DecidableEq, Repr

namespace Outline

/-- The markers of the outline, in source order. -/
def markers (o : Outline) : List Marker := o.marked.map (·.marker)

/-- The text that the outline is of. -/
def source (o : Outline) : Text := o.marked.flatMap (fun m => m.gap ++ m.marker.source) ++ o.tail

/-- The outline with one more marker in front. -/
def mark (gap : Text) (marker : Marker) (o : Outline) : Outline :=
  ⟨⟨gap, marker⟩ :: o.marked, o.tail⟩

/-- The outline of the rest of a template.  Here `place` is where the rest starts and `gap` the
ordinary text read since the last marker, last character first. -/
def scan (place : Place) (gap : Text) (s : Text) : Except Fault Outline :=
  match h : Sighting.ofText s with
  | .unterminated kind => .error (.unterminated kind place.position)
  | .region r rest =>
    have : rest.length < s.length := Sighting.length_lt_of_ofText_eq_region h
    match r.marker? place with
    | some marker => (scan (place.advance r.source) [] rest).map (mark gap.reverse marker)
    | none => scan (place.advance r.source) (r.source.reverse ++ gap) rest
  | .ordinary =>
    match s with
    | [] => .ok ⟨[], gap.reverse⟩
    | c :: cs => scan (place.next c) (c :: gap) cs
termination_by s.length

/-- The outline of a template. -/
def ofText (source : Text) : Except Fault Outline := scan Place.start [] source

/-! ### Laws -/

@[simp] theorem markers_eq_nil_iff {o : Outline} : o.markers = [] ↔ o.marked = [] := by
  simp [markers]

@[simp] theorem markers_mark (gap : Text) (m : Marker) (o : Outline) :
    (o.mark gap m).markers = m :: o.markers := rfl

@[simp] theorem source_mark (gap : Text) (m : Marker) (o : Outline) :
    (o.mark gap m).source = gap ++ m.source ++ o.source := by
  simp [mark, source]

theorem source_of_marker? {r : Region} {place : Place} {m : Marker}
    (h : r.marker? place = some m) : m.source = r.source := by
  cases r <;> simp [Region.marker?] at h <;> subst h <;> rfl

theorem source_scan {place : Place} {gap s : Text} {o : Outline}
    (h : scan place gap s = .ok o) : gap.reverse ++ s = o.source := by
  fun_induction scan place gap s generalizing o with
  | case1 => simp at h
  | case2 place gap s r rest hr _ m hm ih =>
    cases hs : scan (place.advance r.source) [] rest with
    | error f => simp [hs, Except.map] at h
    | ok o' =>
      obtain rfl : mark gap.reverse m o' = o := by simpa [hs, Except.map] using h
      rw [source_mark, ← ih hs, source_of_marker? hm, Sighting.ofText_eq_region hr]
      simp
  | case3 place gap s r rest hr _ hm ih =>
    rw [← ih h, Sighting.ofText_eq_region hr]
    simp
  | case4 place gap =>
    obtain rfl : (⟨[], gap.reverse⟩ : Outline) = o := by simpa using h
    simp [source]
  | case5 place gap c cs _ ih => simpa using ih h

/-- An outline holds all of its template. -/
theorem source_ofText {s : Text} {o : Outline} (h : ofText s = .ok o) : o.source = s := by
  simpa using (source_scan h).symm

end Outline

end TemplateGuards
