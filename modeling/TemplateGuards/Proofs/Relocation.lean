import Mathlib.Tactic.Common
import TemplateGuards.Proofs.Admission
import TemplateGuards.Proofs.Sighting

/-!
A template read behind whole lines of other text.  Its markers lie further down in the same
columns, and nothing else about its outline and its pairing changes: neither looks at a place
except to write it down.

* `Position.down`, `Place.behind`, `Outline.behind`, `Nested.down`: the same position, place,
  outline and nesting with other lines in front;
* `Place.start_advance_of_line`: after whole lines a template starts again at its first column;
* `Outline.Scanned.behind`: the scan from a place with other lines in front;
* `Marker.admit_behind`, `Pairing.ofMarked_behind`: the pairing, one marker and all of them.
-/

namespace TemplateGuards

/-! ### Places -/

/-- The position with other lines above it. -/
def Position.down (lines : Nat) (p : Position) : Position := ⟨p.line + lines, p.column⟩

/-- The place with a text of whole lines before it. -/
def Place.behind (before : Text) (p : Place) : Place :=
  ⟨p.offset + before.byteSize, p.position.down (before.count '\n')⟩

lemma Position.next_down (lines : Nat) (p : Position) (c : Char) :
    (p.down lines).next c = (p.next c).down lines := by
  unfold Position.next Position.down
  split <;> simp [Nat.add_right_comm]

namespace Place

variable {before s t : Text}

lemma next_behind (before : Text) (p : Place) (c : Char) :
    (p.behind before).next c = (p.next c).behind before := by
  simp [next, behind, Position.next_down, Nat.add_right_comm]

lemma advance_behind (before : Text) (p : Place) (t : Text) :
    (p.behind before).advance t = (p.advance t).behind before := by
  induction t generalizing p with
  | nil => rfl
  | cons c t ih => rw [advance_cons, advance_cons, next_behind, ih]

lemma line_advance (p : Place) (t : Text) :
    (p.advance t).position.line = p.position.line + t.count '\n' := by
  induction t generalizing p with
  | nil => rfl
  | cons c t ih =>
      have hnext : (p.next c).position.line = p.position.line + [c].count '\n' := by
        by_cases hc : c = '\n' <;> simp [next, Position.next, hc]
      rw [advance_cons, ih, hnext, Nat.add_assoc, ← List.count_append, List.singleton_append]

/-- **After whole lines** a text starts at the first column again. -/
lemma start_advance_of_line (h : ['\n'] <:+ s) : start.advance s = start.behind s := by
  obtain ⟨t, rfl⟩ := h
  have hline := line_advance start t
  have hoffset := offset_advance start t
  rw [advance_append, advance_cons, advance_nil, next, hoffset, Position.next, if_pos rfl, hline]
  simp [behind, Position.down, start, Position.start, Nat.add_assoc]

end Place

/-! ### Outlines -/

/-- The marker with a text of whole lines before it. -/
def Marker.behind (before : Text) : Marker → Marker
  | .opener kind args place => .opener kind args (place.behind before)
  | .ender kind place => .ender kind (place.behind before)

/-- The same gap, and the marker with a text of whole lines before it. -/
def Marked.behind (before : Text) (m : Marked) : Marked := ⟨m.gap, m.marker.behind before⟩

/-- The outline with a text of whole lines before it. -/
def Outline.behind (before : Text) (o : Outline) : Outline :=
  ⟨o.marked.map (Marked.behind before), o.tail⟩

lemma Region.marker?_behind (before : Text) (place : Place) (r : Region) :
    r.marker? (place.behind before) = (r.marker? place).map (Marker.behind before) := by
  cases r <;> rfl

/-- **The scan behind other lines** sets the same markers further down. -/
lemma Outline.Scanned.behind (before : Text) {place : Place} {gap s : Text} {o : Outline}
    (h : Scanned place gap s o) : Scanned (place.behind before) gap s (o.behind before) := by
  induction h with
  | nil place gap => exact .nil _ gap
  | ordinary hc _ ih => exact .ordinary hc (Place.next_behind before _ _ ▸ ih)
  | live hend hm _ ih =>
      refine .live hend ?_ (Place.advance_behind before _ _ ▸ ih)
      rw [Region.marker?_behind, hm, Option.map_some]
  | escaped hend hm _ ih =>
      refine .escaped hend ?_ (Place.advance_behind before _ _ ▸ ih)
      rw [Region.marker?_behind, hm, Option.map_none]

/-! ### Pairings -/

/-- The waiting opener with other lines above it. -/
def Waiting.down (lines : Nat) (w : Waiting) : Waiting := ⟨w.kind, w.position.down lines⟩

/-- The nesting with other lines above both of its directives. -/
def Nested.down (lines : Nat) (n : Nested) : Nested :=
  ⟨n.kind, n.position.down lines, n.outer.down lines⟩

lemma enclosing?_down (lines : Nat) (kind : Kind) (waiting : List Waiting) :
    enclosing? kind (waiting.map (Waiting.down lines)) =
      (enclosing? kind waiting).map (Waiting.down lines) :=
  List.find?_map

lemma Nesting.judge_down {nesting : Nesting} {kind : Kind} {position : Position}
    {waiting : List Waiting} {ns : List Nested} (lines : Nat)
    (h : nesting.judge kind position waiting = .ok ns) :
    nesting.judge kind (position.down lines) (waiting.map (Waiting.down lines)) =
      .ok (ns.map (Nested.down lines)) := by
  unfold Nesting.judge at h ⊢
  rw [enclosing?_down]
  cases henc : enclosing? kind waiting with
  | none =>
      obtain rfl : [] = ns := by simpa [henc] using h
      rfl
  | some outer =>
      rw [henc] at h
      cases nesting with
      | deny => simp at h
      | _ =>
          cases h
          rfl

/-- **One marker** does further down what it does here. -/
lemma Marker.admit_behind (before : Text) {nesting : Nesting} {waiting waiting' : List Waiting}
    {m : Marker} {piece : Piece} {ns : List Nested}
    (h : m.admit nesting waiting = .ok (piece, waiting', ns)) :
    Marker.admit nesting (waiting.map (Waiting.down (before.count '\n'))) (m.behind before) =
      .ok (piece, waiting'.map (Waiting.down (before.count '\n')),
        ns.map (Nested.down (before.count '\n'))) := by
  cases m with
  | opener kind args place =>
      obtain ⟨a, ha, hjudge, rfl, rfl⟩ := Marker.admit_opener_eq_ok_iff.mp h
      exact Marker.admit_opener_eq_ok_iff.mpr ⟨a, ha, Nesting.judge_down _ hjudge, rfl, rfl⟩
  | ender kind place =>
      obtain ⟨inner, rfl, rfl, rfl, rfl⟩ := Marker.admit_ender_eq_ok_iff.mp h
      exact Marker.admit_ender_eq_ok_iff.mpr ⟨_, rfl, rfl, rfl, rfl⟩

/-- **All markers** pair up further down as they do here. -/
lemma Pairing.ofMarked_behind (before : Text) {nesting : Nesting} {tail : Text}
    {waiting : List Waiting} {ms : List Marked} {p : Pairing}
    (h : ofMarked nesting tail waiting ms = .ok p) :
    ofMarked nesting tail (waiting.map (Waiting.down (before.count '\n')))
        (ms.map (Marked.behind before)) =
      .ok ⟨p.pieces, p.warnings.map (Nested.down (before.count '\n'))⟩ := by
  induction ms generalizing waiting p with
  | nil =>
      obtain ⟨rfl, rfl⟩ := ofMarked_nil_eq_ok_iff.mp h
      rfl
  | cons m ms ih =>
      obtain ⟨piece, waiting', ns, rest, hm, hrest, rfl⟩ := ofMarked_cons_eq_ok_iff.mp h
      refine ofMarked_cons_eq_ok_iff.mpr
        ⟨piece, _, _, _, Marker.admit_behind before hm, ih hrest, ?_⟩
      rw [List.map_append]
      rfl

end TemplateGuards
