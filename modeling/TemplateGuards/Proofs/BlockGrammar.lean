import TemplateGuards.Proofs.Admission

/-!
The block structure of a template, seen through the tags of its markers.  A balanced sequence of
tags is nothing, or a block (an opener, a balanced sequence, the end tag of the same kind)
followed by a balanced sequence.

* `Balanced`: the grammar; `SelfNestingFree`: no block holds an opener of its own kind;
* `Nesting.Accepts`: what the pairing checks while it goes through the tags with a stack of
  waiting kinds (`Pairing.exists_ofMarked_iff`);
* `Accepts.segments`: a stack of waiting kinds is ended by balanced segments, one for each kind;
* `Accepts.append_of_balanced`, `Accepts.not_mem_of_mem`: over a balanced sequence the stack comes
  back, and no kind of a denied stack is opened;
* `exists_compile_iff`: the templates that are compiled are those with balanced tags, readable
  arguments and, where nesting is denied, no self-nesting.
-/

namespace TemplateGuards

/-- The tag of a marker. -/
def Marker.tag : Marker → Tag
  | opener kind _ _ => .opener kind
  | ender kind _ => .ender kind

/-- The tags of an outline's markers, in source order. -/
def Outline.tags (o : Outline) : List Tag := o.markers.map Marker.tag

/-! ### The grammar -/

/-- The sequences of tags in which every opener has its end tag. -/
inductive Balanced : List Tag → Prop
  | nil : Balanced []
  | block (kind : Kind) {v w : List Tag} : Balanced v → Balanced w →
      Balanced (.opener kind :: (v ++ .ender kind :: w))

/-- No block holds an opener of its own kind, at any depth. -/
def SelfNestingFree (ts : List Tag) : Prop :=
  ∀ u kind v w, ts = u ++ .opener kind :: (v ++ .ender kind :: w) → Balanced v →
    .opener kind ∉ v

/-- A part of a sequence without self-nesting has none either. -/
lemma SelfNestingFree.mono {ts us : List Tag} (h : SelfNestingFree ts) (hu : us <:+: ts) :
    SelfNestingFree us := by
  obtain ⟨s, t, rfl⟩ := hu
  rintro u kind v w rfl hv
  exact h (s ++ u) kind v (w ++ t) (by simp) hv

/-! ### Going through the tags with a stack -/

/-- Do the tags end all waiting kinds, the innermost first, and open and end blocks of their own
in between?  Under a policy that denies nesting no waiting kind may be opened. -/
def Nesting.Accepts (nesting : Nesting) : List Kind → List Tag → Prop
  | waiting, [] => waiting = []
  | waiting, .opener kind :: ts =>
      (nesting = .deny → kind ∉ waiting) ∧ nesting.Accepts (kind :: waiting) ts
  | waiting, .ender kind :: ts => ∃ outer, waiting = kind :: outer ∧ nesting.Accepts outer ts

/-- The pairing succeeds exactly when all arguments can be read and the tags are accepted. -/
lemma Pairing.exists_ofMarked_iff {nesting : Nesting} {tail : Text} {waiting : List Waiting}
    {ms : List Marked} :
    (∃ p, ofMarked nesting tail waiting ms = .ok p) ↔
      (∀ kind args place, .opener kind args place ∈ ms.map (·.marker) →
          ∃ a, Arguments.parse args = .ok a) ∧
        nesting.Accepts (waiting.map (·.kind)) (ms.map (·.marker.tag)) := by
  induction ms generalizing waiting with
  | nil => simp [ofMarked_nil_eq_ok_iff, Nesting.Accepts]
  | cons m ms ih =>
      simp only [ofMarked_cons_eq_ok_iff]
      cases hm : m.marker with
      | opener kind args place =>
          simp only [Marker.admit_opener_eq_ok_iff, List.map_cons, hm, Marker.tag,
            Nesting.Accepts, List.mem_cons]
          have hjudge : (∃ ns, nesting.judge kind place.position waiting = .ok ns) ↔
              (nesting = .deny → kind ∉ waiting.map (·.kind)) := Nesting.exists_judge_iff
          have hrest := @ih (⟨kind, place.position⟩ :: waiting)
          simp only [List.map_cons] at hrest
          constructor
          · rintro ⟨p, piece, waiting', ns, rest, ⟨a, ha, hns, -, rfl⟩, hp, -⟩
            obtain ⟨hargs, hacc⟩ := hrest.mp ⟨rest, hp⟩
            refine ⟨fun k as pl h => ?_, hjudge.mp ⟨ns, hns⟩, hacc⟩
            rcases h with h | h
            · injection h with _ h _
              exact h ▸ ⟨a, ha⟩
            · exact hargs k as pl h
          · rintro ⟨hargs, hdeny, hacc⟩
            obtain ⟨a, ha⟩ := hargs kind args place (Or.inl rfl)
            obtain ⟨ns, hns⟩ := hjudge.mpr hdeny
            obtain ⟨rest, hp⟩ := hrest.mpr ⟨fun k as pl h => hargs k as pl (Or.inr h), hacc⟩
            exact ⟨_, _, _, ns, rest, ⟨a, ha, hns, rfl, rfl⟩, hp, rfl⟩
      | ender kind place =>
          simp only [Marker.admit_ender_eq_ok_iff, List.map_cons, hm, Marker.tag,
            Nesting.Accepts, List.mem_cons, reduceCtorEq, false_or]
          constructor
          · rintro ⟨p, piece, waiting', ns, rest, ⟨inner, rfl, rfl, -, -⟩, hp, -⟩
            obtain ⟨hargs, hacc⟩ := ih.mp ⟨rest, hp⟩
            exact ⟨hargs, _, rfl, hacc⟩
          · rintro ⟨hargs, outer, hw, hacc⟩
            obtain ⟨inner, waiting', rfl, rfl, rfl⟩ := List.map_eq_cons_iff.mp hw
            obtain ⟨rest, hp⟩ := ih.mpr ⟨hargs, hacc⟩
            exact ⟨_, _, _, _, rest, ⟨inner, rfl, rfl, rfl, rfl⟩, hp, rfl⟩

/-! ### The stack and the grammar -/

/-- The tags are balanced segments with the end tags of the waiting kinds between them. -/
def Segments : List Kind → List Tag → Prop
  | [], ts => Balanced ts
  | kind :: waiting, ts =>
      ∃ v w, ts = v ++ .ender kind :: w ∧ Balanced v ∧ Segments waiting w

/-- A block in front of the segments goes into the first of them. -/
lemma Segments.block {kind : Kind} {waiting : List Kind} {ts : List Tag}
    (h : Segments (kind :: waiting) ts) : Segments waiting (.opener kind :: ts) := by
  obtain ⟨v, w, rfl, hv, hw⟩ := h
  cases waiting with
  | nil => exact Balanced.block kind hv hw
  | cons outer waiting =>
      obtain ⟨x, y, rfl, hx, hy⟩ := hw
      exact ⟨.opener kind :: (v ++ .ender kind :: x), y, by simp, Balanced.block kind hv hx, hy⟩

namespace Nesting.Accepts

variable {nesting : Nesting}

lemma segments {waiting : List Kind} {ts : List Tag} (h : nesting.Accepts waiting ts) :
    Segments waiting ts := by
  induction ts generalizing waiting with
  | nil =>
      obtain rfl : waiting = [] := h
      exact .nil
  | cons t ts ih =>
      cases t with
      | opener kind => exact (ih h.2).block
      | ender kind =>
          obtain ⟨outer, rfl, hts⟩ := h
          exact ⟨[], ts, rfl, .nil, ih hts⟩

/-- Over a balanced sequence without forbidden openers the stack comes back. -/
lemma append_of_balanced {v ts : List Tag} (hv : Balanced v) {waiting : List Kind}
    (hfree : nesting = .deny → SelfNestingFree v)
    (hwaiting : nesting = .deny → ∀ kind ∈ waiting, .opener kind ∉ v)
    (h : nesting.Accepts waiting ts) : nesting.Accepts waiting (v ++ ts) := by
  induction hv generalizing waiting ts with
  | nil => exact h
  | @block kind v w hv _ ihv ihw =>
      have hinner : v <:+: .opener kind :: (v ++ .ender kind :: w) :=
        ⟨[.opener kind], .ender kind :: w, by simp⟩
      have houter : w <:+: .opener kind :: (v ++ .ender kind :: w) :=
        ⟨.opener kind :: (v ++ [.ender kind]), [], by simp⟩
      rw [List.cons_append, List.append_assoc, List.cons_append]
      refine ⟨fun hn hk => hwaiting hn kind hk List.mem_cons_self, ?_⟩
      refine ihv (fun hn => (hfree hn).mono hinner) (fun hn k hk => ?_)
        ⟨waiting, rfl, ihw (fun hn => (hfree hn).mono houter) (fun hn k hk => ?_) h⟩
      · rcases List.mem_cons.mp hk with rfl | hk
        · exact hfree hn [] k v w rfl hv
        · exact fun hmem => hwaiting hn k hk (hinner.subset hmem)
      · exact fun hmem => hwaiting hn k hk (houter.subset hmem)

/-- Where nesting is denied, a balanced sequence opens no waiting kind; and the stack comes back
after it. -/
lemma of_append {v ts : List Tag} (hv : Balanced v) {waiting : List Kind}
    (h : nesting.Accepts waiting (v ++ ts)) :
    nesting.Accepts waiting ts ∧ (nesting = .deny → ∀ kind ∈ waiting, .opener kind ∉ v) := by
  induction hv generalizing waiting ts with
  | nil => exact ⟨h, by simp⟩
  | @block kind v w _ _ ihv ihw =>
      rw [List.cons_append, List.append_assoc, List.cons_append] at h
      obtain ⟨hkind, h⟩ := h
      obtain ⟨⟨outer, houter, h⟩, hv⟩ := ihv h
      obtain ⟨rfl⟩ : waiting = outer := (List.cons.inj houter).2
      obtain ⟨h, hw⟩ := ihw h
      refine ⟨h, fun hn k hk hmem => ?_⟩
      have hne : k ≠ kind := by
        rintro rfl
        exact hkind hn hk
      simp only [List.mem_cons, List.mem_append, Tag.opener.injEq, reduceCtorEq, false_or] at hmem
      rcases hmem with hmem | hmem | hmem
      · exact hne hmem
      · exact hv hn k (List.mem_cons_of_mem _ hk) hmem
      · exact hw hn k hk hmem

/-- Where nesting is denied, no block of the accepted tags holds an opener of its own kind. -/
lemma selfNestingFree {waiting : List Kind} {ts : List Tag}
    (h : Nesting.deny.Accepts waiting ts) : SelfNestingFree ts := by
  rintro u kind v w rfl hv
  -- the tags before the block only change the stack
  induction u generalizing waiting with
  | nil =>
      obtain ⟨-, h⟩ := h
      exact (of_append hv h).2 rfl kind List.mem_cons_self
  | cons t u ih =>
      cases t with
      | opener k => exact ih h.2
      | ender k =>
          obtain ⟨outer, -, h⟩ := h
          exact ih h

end Nesting.Accepts

/-- From the empty stack the accepted tags are the balanced ones, without self-nesting where
nesting is denied. -/
lemma Nesting.accepts_nil_iff {nesting : Nesting} {ts : List Tag} :
    nesting.Accepts [] ts ↔ Balanced ts ∧ (nesting = .deny → SelfNestingFree ts) := by
  constructor
  · intro h
    refine ⟨h.segments, ?_⟩
    rintro rfl
    exact h.selfNestingFree
  · rintro ⟨hbal, hfree⟩
    have hnil : nesting.Accepts [] [] := rfl
    simpa using hnil.append_of_balanced hbal hfree (by simp)

/-! ### The templates that are compiled -/

/-- An outline is paired exactly when its arguments can be read and its tags are balanced, without
self-nesting where nesting is denied. -/
lemma Pairing.exists_ofOutline_iff {nesting : Nesting} {o : Outline} :
    (∃ p, ofOutline nesting o = .ok p) ↔
      (∀ kind args place, .opener kind args place ∈ o.markers →
          ∃ a, Arguments.parse args = .ok a) ∧
        Balanced o.tags ∧ (nesting = .deny → SelfNestingFree o.tags) := by
  rw [← Nesting.accepts_nil_iff, ofOutline, exists_ofMarked_iff, Outline.tags, Outline.markers,
    List.map_map]
  rfl

/-- A template is compiled exactly when every live opener has its closing parenthesis, all
arguments can be read, the tags are balanced and, where nesting is denied, no block holds an
opener of its own kind.  Arguments can be read exactly when no piece of them is empty. -/
theorem exists_compile_iff (d : Dialect) (nesting : Nesting) (source : Text) :
    ((∃ c, compile d nesting source = .ok c) ↔
      ∃ o, Outline.ofText source = .ok o ∧
        (∀ kind args place, .opener kind args place ∈ o.markers →
          ∃ a, Arguments.parse args = .ok a) ∧
        Balanced o.tags ∧ (nesting = .deny → SelfNestingFree o.tags)) ∧
      ∀ args, (∃ a, Arguments.parse args = .ok a) ↔ [] ∉ splitArguments args := by
  refine ⟨?_, fun args => Arguments.exists_parse_iff⟩
  simp only [compile_eq_ok_iff]
  constructor
  · rintro ⟨c, o, ho, h⟩
    refine ⟨o, ho, ?_⟩
    rcases h with ⟨hnil, -⟩ | ⟨-, p, hp, -⟩
    · simpa [Outline.markers, Outline.tags, hnil, SelfNestingFree] using Balanced.nil
    · exact Pairing.exists_ofOutline_iff.mp ⟨p, hp⟩
  · rintro ⟨o, ho, h⟩
    by_cases hnil : o.marked = []
    · exact ⟨.unchanged source, o, ho, Or.inl ⟨hnil, rfl⟩⟩
    · obtain ⟨p, hp⟩ := Pairing.exists_ofOutline_iff.mpr h
      exact ⟨_, o, ho, Or.inr ⟨hnil, p, hp, rfl⟩⟩

end TemplateGuards
