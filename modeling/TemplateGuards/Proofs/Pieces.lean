import Mathlib.Data.List.Forall2
import TemplateGuards.Dialect.Basic
import TemplateGuards.Proofs.Admission
import TemplateGuards.Proofs.ParenthesisDepth

/-!
The pieces of an argument text, whatever the text: brackets may be unbalanced in it and literals
left open.  Behind each comma that separates, the splitting starts anew, and white space never
moves it; so pieces that stand side by side can be joined with commas again.

* `Text.Pads`: a text with white space around it;
* `Splitting`, `Splitting.over?`: where the splitting stands inside a piece;
* `Whole`, `Complete`: a text that stays one piece, and one behind which a comma separates;
* `Pieces`: texts that are split again when they are joined with commas
  (`Pieces.splitArguments_intercalate`); any text is such texts joined (`exists_pieces`), and so
  are the pieces themselves (`Pieces.mono`, `pieces_iff_of_pads`);
* `splitArguments_resplit`: splitting loses white space only, and can be undone and done again.
-/

namespace TemplateGuards

/-! ### White space around a text -/

namespace Text

/-- Is the second text the first with white space around it? -/
def Pads (p t : Text) : Prop :=
  ∃ u v, allBlank u = true ∧ allBlank v = true ∧ t = u ++ (p ++ v)

/-- White space around a text does not matter to `trim`. -/
lemma Pads.trim_eq {p t : Text} (h : Pads p t) : trim t = trim p := by
  obtain ⟨u, v, hu, hv, rfl⟩ := h
  rw [← List.append_assoc, trim_append hu hv]

lemma pads_trim (t : Text) : Pads (trim t) t :=
  exists_eq_append_trim_append t

/-- A trimmed text has no white space at its ends. -/
lemma trim_trim (t : Text) : trim (trim t) = trim t :=
  (pads_trim t).trim_eq.symm

end Text

open Text

/-! ### The splitting inside a piece -/

/-- Where the splitting of an argument text stands inside a piece. -/
structure Splitting where
  quotation : Quotation
  depth : Nat

namespace Splitting

/-- At the start of a piece. -/
def start : Splitting := ⟨.outside, 0⟩

/-- After one more character of the piece; `none` at a comma that separates. -/
def next? (s : Splitting) (c : Char) : Option Splitting :=
  if s.quotation.covers c then some ⟨s.quotation.step c, s.depth⟩
  else if c = ',' ∧ s.depth = 0 then none
  else some ⟨s.quotation.step c, bracketDepth s.depth c⟩

/-- After more text of the piece; `none` where a comma of the text separates. -/
def over? (s : Splitting) (t : Text) : Option Splitting := t.foldlM next? s

variable {s s' : Splitting} {c : Char} {t : Text}

lemma over?_cons (s : Splitting) (c : Char) (t : Text) :
    s.over? (c :: t) = (s.next? c).bind (over? · t) :=
  List.foldlM_cons

lemma over?_append (s : Splitting) (t u : Text) :
    s.over? (t ++ u) = (s.over? t).bind (over? · u) :=
  List.foldlM_append

/-- A comma separates only at the start of a piece or where the splitting has come back to it. -/
lemma next?_eq_none_iff : s.next? c = none ↔ c = ',' ∧ s = start := by
  obtain ⟨q, depth⟩ := s
  unfold next?
  constructor
  · intro h
    split_ifs at h with hcov hcomma
    obtain ⟨rfl, rfl⟩ := hcomma
    rw [Bool.not_eq_true] at hcov
    obtain rfl : q = .outside := Quotation.eq_outside_of_not_covers hcov
    exact ⟨rfl, rfl⟩
  · rintro ⟨rfl, hstart⟩
    cases hstart
    rfl

/-- The splitting takes a character into the piece, or ends the piece at it. -/
lemma splitFrom_cons (s : Splitting) (piece : Text) (c : Char) (t : Text) :
    splitFrom s.quotation s.depth piece (c :: t) = match s.next? c with
      | some s' => splitFrom s'.quotation s'.depth (c :: piece) t
      | none => trim piece.reverse :: splitFrom .outside 0 [] t := by
  rw [splitFrom]
  unfold next?
  split_ifs with hcov hcomma
  · rfl
  · rw [Bool.not_eq_true] at hcov
    rw [Quotation.step_of_not_covers hcov, hcomma.2]
  · rfl

/-- The splitting takes a text without separating commas into the piece. -/
lemma splitFrom_append (h : s.over? t = some s') (piece rest : Text) :
    splitFrom s.quotation s.depth piece (t ++ rest) =
      splitFrom s'.quotation s'.depth (t.reverse ++ piece) rest := by
  induction t generalizing s piece with
  | nil =>
      cases h
      rfl
  | cons c t ih =>
      rw [over?_cons, Option.bind_eq_some_iff] at h
      obtain ⟨mid, hc, ht⟩ := h
      rw [List.cons_append, splitFrom_cons, hc, List.reverse_cons, List.append_assoc]
      exact ih ht (c :: piece)

/-- The splitting reads literals as every reader does. -/
lemma quotation_eq_after (h : s.over? t = some s') : s'.quotation = s.quotation.after t := by
  induction t generalizing s with
  | nil =>
      cases h
      rfl
  | cons c t ih =>
      rw [over?_cons, Option.bind_eq_some_iff] at h
      obtain ⟨mid, hc, ht⟩ := h
      have hmid : mid.quotation = s.quotation.step c := by
        unfold next? at hc
        split_ifs at hc <;> (cases hc; rfl)
      rw [ih ht, hmid, Quotation.after_cons]

/-! #### White space -/

lemma next?_of_isBlank (h : isBlank c = true) (s : Splitting) :
    s.next? c = some ⟨s.quotation.step c, s.depth⟩ := by
  have hother : ∀ d : Char, isBlank d = false → c ≠ d := fun d => ne_of_isBlank h
  have hdepth : bracketDepth s.depth c = s.depth := by
    simp [bracketDepth, hother '(' (by decide), hother '[' (by decide),
      hother '\x7b' (by decide), hother ')' (by decide), hother ']' (by decide),
      hother '\x7d' (by decide)]
  simp [next?, hother ',' (by decide), hdepth]

/-- White space stays in the piece, at the depth at which it stands. -/
lemma over?_of_allBlank (h : allBlank t = true) (s : Splitting) :
    s.over? t = some ⟨s.quotation.after t, s.depth⟩ := by
  induction t generalizing s with
  | nil => rfl
  | cons c t ih =>
      rw [allBlank, List.all_cons, Bool.and_eq_true] at h
      rw [over?_cons, next?_of_isBlank h.1, Option.bind_some, ih h.2]
      rfl

/-- White space before a text does nothing, and white space behind it no more than it does to the
quotation. -/
lemma over?_start_of_pads {p u v : Text} (hu : allBlank u = true) (hv : allBlank v = true) :
    start.over? (u ++ (p ++ v)) =
      (start.over? p).map fun s => ⟨s.quotation.after v, s.depth⟩ := by
  have hstart : start.over? u = some start := by
    rw [over?_of_allBlank hu]
    exact congrArg some (congrArg (Splitting.mk · 0) (leads_of_allBlank hu 0).1)
  rw [over?_append, hstart, Option.bind_some, over?_append]
  cases start.over? p with
  | none => rfl
  | some s => exact over?_of_allBlank hv s

end Splitting

/-! ### Pieces -/

/-- Does no comma of the text separate? -/
def Whole (t : Text) : Prop := ∃ s, Splitting.start.over? t = some s

/-- Does no comma of the text separate, and would a comma behind it? -/
def Complete (t : Text) : Prop := Splitting.start.over? t = some .start

lemma Complete.whole {t : Text} (h : Complete t) : Whole t := ⟨_, h⟩

/-- White space around a text does not make it more than one piece, or less. -/
lemma whole_iff_of_pads {p t : Text} (h : Pads p t) : Whole t ↔ Whole p := by
  obtain ⟨u, v, hu, hv, rfl⟩ := h
  simp [Whole, Splitting.over?_start_of_pads hu hv]

/-- Nor does it matter to what a comma behind the text does: no literal ends in white space. -/
lemma complete_iff_of_pads {p t : Text} (h : Pads p t) : Complete t ↔ Complete p := by
  obtain ⟨u, v, hu, hv, rfl⟩ := h
  rw [Complete, Splitting.over?_start_of_pads hu hv, Option.map_eq_some_iff, Complete]
  constructor
  · rintro ⟨⟨q, depth⟩, hp, hs⟩
    obtain ⟨hq, rfl⟩ := Splitting.mk.inj hs
    have hafter : q = Quotation.outside.after p := Splitting.quotation_eq_after hp
    have hreal : q.IsReal := hafter ▸ Quotation.IsReal.outside.after p
    rw [hp, eq_outside_of_after_blank hreal hv hq]
    rfl
  · intro hp
    exact ⟨_, hp, congrArg (Splitting.mk · 0) (leads_of_allBlank hv 0).1⟩

/-- **The texts stay pieces when they are joined with commas**: none of their own commas separates,
and each comma between two of them does. -/
inductive Pieces : List Text → Prop
  | last {t : Text} (h : Whole t) : Pieces [t]
  | cons {t : Text} {ts : List Text} (h : Complete t) (hts : Pieces ts) : Pieces (t :: ts)

namespace Pieces

variable {ts part : List Text}

lemma ne_nil (h : Pieces ts) : ts ≠ [] := by
  cases h <;> simp

lemma cons_iff {t : Text} :
    Pieces (t :: ts) ↔ ts = [] ∧ Whole t ∨ Complete t ∧ Pieces ts := by
  constructor
  · rintro (h | ⟨h, hts⟩)
    · exact Or.inl ⟨rfl, h⟩
    · exact Or.inr ⟨h, hts⟩
  · rintro (⟨rfl, h⟩ | ⟨h, hts⟩)
    · exact .last h
    · exact .cons h hts

/-- **Joined with commas they are split again.** -/
lemma splitArguments_intercalate (h : Pieces ts) :
    splitArguments ([','].intercalate ts) = ts.map trim := by
  rw [splitArguments]
  induction h with
  | @last t h =>
      obtain ⟨s, hs⟩ := h
      have hread := Splitting.splitFrom_append hs [] []
      rw [List.append_nil, List.append_nil] at hread
      rw [List.intercalate_singleton]
      exact hread.trans (by rw [splitFrom, List.reverse_reverse]; rfl)
  | @cons t ts h hts ih =>
      obtain ⟨t', ts, rfl⟩ := List.exists_cons_of_ne_nil hts.ne_nil
      have hread := Splitting.splitFrom_append h [] (',' :: [','].intercalate (t' :: ts))
      rw [List.append_nil] at hread
      rw [List.intercalate_cons_cons, List.append_assoc, List.singleton_append, List.map_cons, ← ih]
      refine hread.trans ((Splitting.splitFrom_cons .start _ _ _).trans ?_)
      rw [Splitting.next?_eq_none_iff.mpr ⟨rfl, rfl⟩, List.reverse_reverse]

lemma of_append_right {before : List Text} (h : Pieces (before ++ part)) (hne : part ≠ []) :
    Pieces part := by
  induction before with
  | nil => exact h
  | cons t before ih =>
      rcases cons_iff.mp h with ⟨hnil, -⟩ | ⟨-, hts⟩
      · exact absurd (List.append_eq_nil_iff.mp hnil).2 hne
      · exact ih hts

lemma of_append_left {after : List Text} (h : Pieces (part ++ after)) (hne : part ≠ []) :
    Pieces part := by
  induction part with
  | nil => exact absurd rfl hne
  | cons t part ih =>
      rcases cons_iff.mp h with ⟨hnil, hwhole⟩ | ⟨hcomplete, hts⟩
      · rw [(List.append_eq_nil_iff.mp hnil).1]
        exact .last hwhole
      · cases part with
        | nil => exact .last hcomplete.whole
        | cons t' part => exact .cons hcomplete (ih hts (by simp))

/-- Some of them that stand side by side stay pieces too. -/
lemma mono (h : Pieces ts) (hpart : part <:+: ts) (hne : part ≠ []) : Pieces part := by
  obtain ⟨before, after, rfl⟩ := hpart
  rw [List.append_assoc] at h
  exact (h.of_append_right (by simp [hne])).of_append_left hne

end Pieces

/-- White space around texts does not matter to how they are split when they are joined. -/
lemma pieces_iff_of_pads {ps ts : List Text} (h : List.Forall₂ Pads ps ts) :
    Pieces ts ↔ Pieces ps := by
  induction h with
  | nil => rfl
  | @cons p t ps ts hp hps ih =>
      have hnil : ts = [] ↔ ps = [] := by
        rw [← List.length_eq_zero_iff, ← hps.length_eq, List.length_eq_zero_iff]
      rw [Pieces.cons_iff, Pieces.cons_iff, whole_iff_of_pads hp, complete_iff_of_pads hp, ih, hnil]

/-! ### Every argument text is pieces joined -/

lemma cons_intercalate (c : Char) (t : Text) (ts : List Text) :
    c :: [','].intercalate (t :: ts) = [','].intercalate ((c :: t) :: ts) := by
  cases ts with
  | nil => simp
  | cons t' ts => rw [List.intercalate_cons_cons, List.intercalate_cons_cons]; rfl

/-- Behind the start of a piece the rest of an argument text is the rest of that piece and more
pieces, joined with commas. -/
lemma exists_pieces_append {piece : Text} {s : Splitting}
    (h : Splitting.start.over? piece = some s) (rest : Text) :
    ∃ t ts, Pieces ((piece ++ t) :: ts) ∧ rest = [','].intercalate (t :: ts) := by
  induction rest generalizing piece s with
  | nil => exact ⟨[], [], .last ⟨s, by rw [List.append_nil, h]⟩, by simp⟩
  | cons c rest ih =>
      cases hc : s.next? c with
      | some s' =>
          have hgrow : Splitting.start.over? (piece ++ [c]) = some s' := by
            rw [Splitting.over?_append, h, Option.bind_some, Splitting.over?_cons, hc]
            rfl
          obtain ⟨t, ts, hts, rfl⟩ := ih hgrow
          rw [List.append_assoc] at hts
          exact ⟨c :: t, ts, hts, cons_intercalate c t ts⟩
      | none =>
          -- the piece ends here, and the next one starts behind the comma
          obtain ⟨rfl, rfl⟩ := Splitting.next?_eq_none_iff.mp hc
          have hnext : Splitting.start.over? [] = some .start := rfl
          obtain ⟨t, ts, hts, rfl⟩ := ih hnext
          refine ⟨[], t :: ts, .cons (by rwa [List.append_nil]) hts, ?_⟩
          rw [List.intercalate_cons_cons]
          rfl

/-- Every argument text is pieces joined with commas. -/
lemma exists_pieces (args : Text) : ∃ ts, Pieces ts ∧ args = [','].intercalate ts := by
  have hstart : Splitting.start.over? [] = some .start := rfl
  obtain ⟨t, ts, hts, hargs⟩ := exists_pieces_append hstart args
  exact ⟨t :: ts, hts, hargs⟩

/-- What an argument text is split into stays pieces, and with white space around them they are the
text. -/
lemma pieces_splitArguments (args : Text) :
    Pieces (splitArguments args) ∧
      ∃ padded, List.Forall₂ Pads (splitArguments args) padded ∧
        args = [','].intercalate padded := by
  obtain ⟨ts, hts, rfl⟩ := exists_pieces args
  have hpads : List.Forall₂ Pads (ts.map trim) ts :=
    List.forall₂_map_left_iff.mpr (List.forall₂_same.mpr fun t _ => pads_trim t)
  rw [hts.splitArguments_intercalate]
  exact ⟨(pieces_iff_of_pads hpads).mp hts, ts, hpads, rfl⟩

lemma trim_of_mem_splitArguments {args p : Text} (h : p ∈ splitArguments args) : trim p = p := by
  obtain ⟨ts, hts, rfl⟩ := exists_pieces args
  rw [hts.splitArguments_intercalate] at h
  obtain ⟨t, -, rfl⟩ := List.mem_map.mp h
  exact trim_trim t

/-- **Pieces with other white space around them are split into themselves.** -/
lemma splitArguments_of_pads {args : Text} {part padded : List Text}
    (hpart : part <:+: splitArguments args) (hne : part ≠ [])
    (hpads : List.Forall₂ Pads part padded) :
    splitArguments ([','].intercalate padded) = part := by
  have hpieces : Pieces part := (pieces_splitArguments args).1.mono hpart hne
  rw [((pieces_iff_of_pads hpads).mpr hpieces).splitArguments_intercalate]
  have htrim : ∀ p ∈ part, trim p = p :=
    fun p hp => trim_of_mem_splitArguments (hpart.subset hp)
  clear hpart hne hpieces
  induction hpads with
  | nil => rfl
  | cons hp _ ih =>
      rw [List.map_cons, hp.trim_eq, htrim _ List.mem_cons_self,
        ih fun p hp => htrim p (List.mem_cons_of_mem _ hp)]

/-! ### Separators with white space -/

/-- Texts joined with a comma that has white space on its sides are texts with white space around
them, joined with commas. -/
lemma exists_pads_intercalate {u v w : Text} (hu : allBlank u = true) (hv : allBlank v = true)
    (hw : allBlank w = true) (p : Text) (ps : List Text) :
    ∃ t ts, List.Forall₂ Pads (p :: ps) (t :: ts) ∧
      w ++ (u ++ ',' :: v).intercalate (p :: ps) = [','].intercalate (t :: ts) := by
  induction ps generalizing p w with
  | nil => exact ⟨w ++ p, [], .cons ⟨w, [], hw, rfl, by simp⟩ .nil, by simp⟩
  | cons p' ps ih =>
      obtain ⟨t, ts, hts, heq⟩ := ih hv p'
      refine ⟨w ++ (p ++ u), t :: ts, .cons ⟨w, u, hw, hu, rfl⟩ hts, ?_⟩
      rw [List.intercalate_cons_cons, List.intercalate_cons_cons, ← heq]
      simp

/-- Pieces that stand side by side, joined with a comma and white space on its sides, are split into
themselves. -/
lemma splitArguments_intercalate_infix {args u v : Text} {part : List Text}
    (hpart : part <:+: splitArguments args) (hne : part ≠ []) (hu : allBlank u = true)
    (hv : allBlank v = true) : splitArguments ((u ++ ',' :: v).intercalate part) = part := by
  obtain ⟨p, ps, rfl⟩ := List.exists_cons_of_ne_nil hne
  obtain ⟨t, ts, hts, heq⟩ := exists_pads_intercalate hu hv (w := []) rfl p ps
  rw [List.nil_append] at heq
  rw [heq, splitArguments_of_pads hpart hne hts]

/-- The presets separate with a comma and white space. -/
lemma Preset.exists_auxSeparator_eq (preset : Preset) :
    ∃ u v, allBlank u = true ∧ allBlank v = true ∧
      preset.dialect.auxSeparator = u ++ ',' :: v := by
  cases preset with
  | blade => exact ⟨[], [], rfl, rfl, rfl⟩
  | neutral => exact ⟨[], " ", rfl, by decide, rfl⟩

/-- The auxiliary arguments of the complex form are the pieces behind the first, and there are
some. -/
lemma Arguments.splitArguments_of_complex {args policy : Text} {aux : List Text}
    (h : Arguments.parse args = .ok (.complex policy aux)) :
    splitArguments args = policy :: aux ∧ aux ≠ [] := by
  obtain ⟨-, hpieces⟩ := Arguments.parse_eq_ok_iff.mp h
  cases hsplit : splitArguments args with
  | nil => exact absurd hsplit (splitArguments_ne_nil args)
  | cons p ps =>
      cases ps with
      | nil => simp [hsplit, ofPieces] at hpieces
      | cons p' ps =>
          rw [hsplit] at hpieces
          cases hpieces
          exact ⟨rfl, by simp⟩

/-- **Splitting loses white space only.**  Any argument text is its pieces in order, with white
space around them and commas in between.  Pieces that stand side by side, joined with a comma and
any white space on its sides, are split into themselves; so is a piece alone, and so are the
auxiliary arguments as a preset joins them. -/
theorem splitArguments_resplit (args : Text) :
    (splitArguments args ≠ [] ∧ (∀ p ∈ splitArguments args, trim p = p) ∧
      ∃ padded, List.Forall₂ Pads (splitArguments args) padded ∧
        args = [','].intercalate padded) ∧
    (∀ part, part <:+: splitArguments args → part ≠ [] → ∀ u v, allBlank u = true →
      allBlank v = true → splitArguments ((u ++ ',' :: v).intercalate part) = part) ∧
    (∀ p ∈ splitArguments args, splitArguments p = [p]) ∧
    ∀ (preset : Preset) (kind : Kind) policy aux,
      Arguments.parse args = .ok (.complex policy aux) →
        splitArguments (preset.dialect.value kind (.complex policy aux) .aux) = aux := by
  refine ⟨⟨splitArguments_ne_nil args, fun p => trim_of_mem_splitArguments,
    (pieces_splitArguments args).2⟩, ?_, ?_, ?_⟩
  · intro part hpart hne u v hu hv
    exact splitArguments_intercalate_infix hpart hne hu hv
  · intro p hp
    obtain ⟨before, after, hsplit⟩ := List.append_of_mem hp
    have hpart : [p] <:+: splitArguments args := ⟨before, after, by simp [hsplit]⟩
    simpa using splitArguments_intercalate_infix hpart (by simp) (u := []) (v := []) rfl rfl
  · intro preset kind policy aux hparse
    obtain ⟨hsplit, hne⟩ := Arguments.splitArguments_of_complex hparse
    obtain ⟨u, v, hu, hv, hsep⟩ := preset.exists_auxSeparator_eq
    have hpart : aux <:+: splitArguments args := by
      rw [hsplit]
      exact (List.suffix_cons policy aux).isInfix
    have hvalue : preset.dialect.value kind (.complex policy aux) .aux =
        (u ++ ',' :: v).intercalate aux := by rw [← hsep]; rfl
    rw [hvalue, splitArguments_intercalate_infix hpart hne hu hv]

/-- A closing bracket too many, and a literal left open. -/
example : splitArguments " a]) ,b, 'c , d " = ["a])", "b", "'c , d"] := by decide

end TemplateGuards
