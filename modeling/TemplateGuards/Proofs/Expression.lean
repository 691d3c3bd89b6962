import TemplateGuards.Proofs.Admission
import TemplateGuards.Proofs.Parenthesis

/-!
The well-formed expressions of an argument list, and how the two readers of argument texts go
over them.  An expression is made of plain characters, complete literals and nested groups in
brackets; commas stand inside groups only, and between the expressions of a list.

* `LiteralBody`, `Expression`: the grammar, without and with commas outside groups;
* `ExpressionReader`: what the readers have in common, from which they go over an expression
  (`ExpressionReader.read_expression`);
* `closingReader`, `splitReader`: the search for the closing parenthesis and the splitting;
* `Argument`: an expression that is not blank;
* `Argument.parse_listed`, `Argument.firstClosing_listed`: a list of arguments with commas between
  them is read back, trimmed, and the parenthesis after it closes it.
-/

namespace TemplateGuards

/-! ### The grammar -/

/-- The pairs of brackets that group. -/
inductive Bracket
  | round
  | square
  | curly
deriving DecidableEq, Repr

namespace Bracket

/-- The bracket that opens a group. -/
def opening : Bracket → Char
  | round => '('
  | square => '['
  | curly => '\x7b'

/-- The bracket that closes a group. -/
def closing : Bracket → Char
  | round => ')'
  | square => ']'
  | curly => '\x7d'

end Bracket

/-- Is the character neither a quotation mark nor a comma nor a bracket? -/
def isPlain (c : Char) : Bool :=
  !Quotation.isMark c && c != ',' && c != '(' && c != ')' && c != '[' && c != ']' &&
    c != '\x7b' && c != '\x7d'

/-- The inside of a literal: other characters than its mark, and any after a backslash. -/
inductive LiteralBody (mark : Char) : Text → Prop
  | nil : LiteralBody mark []
  | char {c : Char} {t : Text} (hmark : c ≠ mark) (hslash : c ≠ '\\') (h : LiteralBody mark t) :
      LiteralBody mark (c :: t)
  | escape (c : Char) {t : Text} (h : LiteralBody mark t) : LiteralBody mark ('\\' :: c :: t)

/-- A text without the mark and without backslashes may stand in a literal. -/
lemma LiteralBody.of_not_mem {mark : Char} {t : Text} (hmark : mark ∉ t) (hslash : '\\' ∉ t) :
    LiteralBody mark t := by
  induction t with
  | nil => exact .nil
  | cons c t ih =>
      rw [List.mem_cons, not_or] at hmark hslash
      exact .char (Ne.symm hmark.1) (Ne.symm hslash.1) (ih hmark.2 hslash.2)

/-- **The expressions**, with commas outside groups or without. -/
inductive Expression : Bool → Text → Prop
  | nil {commas : Bool} : Expression commas []
  | plain {commas : Bool} {c : Char} {t : Text} (hc : isPlain c = true)
      (h : Expression commas t) : Expression commas (c :: t)
  | comma {t : Text} (h : Expression true t) : Expression true (',' :: t)
  | literal {commas : Bool} {mark : Char} {body t : Text} (hmark : Quotation.isMark mark = true)
      (hbody : LiteralBody mark body) (h : Expression commas t) :
      Expression commas (mark :: (body ++ mark :: t))
  | group {commas : Bool} {inner t : Text} (b : Bracket) (hinner : Expression true inner)
      (h : Expression commas t) : Expression commas (b.opening :: (inner ++ b.closing :: t))

namespace Expression

lemma append {commas : Bool} {s t : Text} (hs : Expression commas s) (ht : Expression commas t) :
    Expression commas (s ++ t) := by
  induction hs with
  | nil => exact ht
  | plain hc h ih => exact .plain hc (ih ht)
  | comma h ih => exact .comma (ih ht)
  | @literal _ mark body _ hmark hbody h ih =>
      rw [List.cons_append, List.append_assoc]
      exact .literal hmark hbody (ih ht)
  | group b hinner h _ ih =>
      rw [List.cons_append, List.append_assoc]
      exact .group b hinner (ih ht)

/-- A text of plain characters is an expression. -/
lemma of_all {commas : Bool} {t : Text} (h : t.all isPlain = true) : Expression commas t := by
  induction t with
  | nil => exact .nil
  | cons c t ih =>
      rw [List.all_cons, Bool.and_eq_true] at h
      exact .plain h.1 (ih h.2)

/-- Where commas may stand they need not. -/
lemma allow_commas {commas : Bool} {s : Text} (h : Expression commas s) : Expression true s := by
  induction h with
  | nil => exact .nil
  | plain hc h ih => exact .plain hc ih
  | comma h ih => exact .comma ih
  | literal hmark hbody h ih => exact .literal hmark hbody ih
  | group b hinner h _ ih => exact .group b hinner ih

/-- Expressions with commas between them are one where commas may stand. -/
lemma intercalate {es : List Text} (h : ∀ e ∈ es, Expression false e) :
    Expression true (List.intercalate [','] es) := by
  induction es with
  | nil => exact .nil
  | cons e es ih =>
      have he := (h e List.mem_cons_self).allow_commas
      have hes := ih fun x hx => h x (List.mem_cons_of_mem _ hx)
      cases es with
      | nil => simpa using he
      | cons e' es =>
          rw [List.intercalate_cons_cons, List.append_assoc]
          exact he.append (.comma hes)

end Expression

/-! ### Splitting, one character -/

section Split

variable {q : Quotation} {depth : Nat} {c : Char} {t : Text}

lemma splitFrom_of_covers (h : q.covers c = true) (piece : Text) :
    splitFrom q depth piece (c :: t) = splitFrom (q.step c) depth (c :: piece) t := by
  simp [splitFrom, h]

lemma splitFrom_comma_zero (h : q.covers ',' = false) (piece : Text) :
    splitFrom q 0 piece (',' :: t) =
      Text.trim piece.reverse :: splitFrom (q.step ',') 0 [] t := by
  simp [splitFrom, h]

lemma splitFrom_other (h : q.covers c = false) (hc : c ≠ ',' ∨ depth ≠ 0) (piece : Text) :
    splitFrom q depth piece (c :: t) =
      splitFrom (q.step c) (bracketDepth depth c) (c :: piece) t := by
  have hcond : ¬ (c = ',' ∧ depth = 0) := fun ⟨h1, h2⟩ => hc.elim (· h1) (· h2)
  simp [splitFrom, h, hcond]

end Split

/-! ### Readers of expressions -/

/-- A reader that goes through a text with a quotation, a depth and the text read so far, last
character first.  Over a group it comes back to its depth, and where it ignores commas it does so
in every group. -/
structure ExpressionReader (β : Type) where
  read : Quotation → Nat → Text → Text → β
  /-- The depth inside a group. -/
  inner : Bracket → Nat → Nat
  /-- The depths at which commas are passed over. -/
  IgnoresCommas : Nat → Prop
  covered : ∀ {q : Quotation} {depth : Nat} {seen t : Text} {c : Char}, q.covers c = true →
    read q depth seen (c :: t) = read (q.step c) depth (c :: seen) t
  plain : ∀ {depth : Nat} {seen t : Text} {c : Char}, isPlain c = true →
    read .outside depth seen (c :: t) = read .outside depth (c :: seen) t
  comma : ∀ {depth : Nat} {seen t : Text}, IgnoresCommas depth →
    read .outside depth seen (',' :: t) = read .outside depth (',' :: seen) t
  opening : ∀ {depth : Nat} {seen t : Text} (b : Bracket),
    read .outside depth seen (b.opening :: t) =
      read .outside (inner b depth) (b.opening :: seen) t
  closing : ∀ {depth : Nat} {seen t : Text} (b : Bracket),
    read .outside (inner b depth) seen (b.closing :: t) =
      read .outside depth (b.closing :: seen) t
  inner_ignoresCommas : ∀ (b : Bracket) (depth : Nat), IgnoresCommas (inner b depth)

namespace ExpressionReader

open Quotation

variable {β : Type} (R : ExpressionReader β)

/-- A reader goes over the inside of a literal and leaves the literal. -/
lemma read_literalBody {mark : Char} {body : Text} (hmark : isMark mark = true)
    (h : LiteralBody mark body) (depth : Nat) (seen t : Text) :
    R.read (inside mark) depth seen (body ++ mark :: t) =
      R.read outside depth (mark :: (body.reverse ++ seen)) t := by
  have hne : mark ≠ '\\' := by
    rintro rfl
    simp [isMark] at hmark
  induction h generalizing seen with
  | nil =>
      rw [List.nil_append, R.covered rfl, step, if_neg hne, if_pos rfl]
      rfl
  | @char c t' hmark' hslash h ih =>
      rw [List.cons_append, R.covered rfl, step, if_neg hslash, if_neg hmark', ih,
        List.reverse_cons, List.append_assoc]
      rfl
  | @escape c t' h ih =>
      rw [List.cons_append, List.cons_append, R.covered rfl, step, if_pos rfl, R.covered rfl,
        step, ih, List.reverse_cons, List.reverse_cons, List.append_assoc, List.append_assoc]
      rfl

/-- **A reader goes over an expression**, where it ignores the commas of it. -/
lemma read_expression {commas : Bool} {e : Text} (h : Expression commas e) (depth : Nat)
    (hcommas : commas = true → R.IgnoresCommas depth) (seen t : Text) :
    R.read outside depth seen (e ++ t) = R.read outside depth (e.reverse ++ seen) t := by
  induction h generalizing depth seen t with
  | nil => rfl
  | @plain commas c s hc h ih =>
      rw [List.cons_append, R.plain hc, ih depth hcommas, List.reverse_cons, List.append_assoc]
      rfl
  | @comma s h ih =>
      rw [List.cons_append, R.comma (hcommas rfl), ih depth hcommas, List.reverse_cons,
        List.append_assoc]
      rfl
  | @literal commas mark body s hmark hbody h ih =>
      have hcov : outside.covers mark = true := hmark
      have hstep : outside.step mark = inside mark := by rw [step, if_pos hmark]
      rw [List.cons_append, List.append_assoc, List.cons_append, R.covered hcov, hstep,
        R.read_literalBody hmark hbody, ih depth hcommas]
      simp
  | @group commas inner s b hinner h ihinner ih =>
      rw [List.cons_append, List.append_assoc, List.cons_append, R.opening,
        ihinner _ (fun _ => R.inner_ignoresCommas b depth), R.closing, ih depth hcommas]
      simp

end ExpressionReader

/-! ### The two readers -/

lemma not_covers_of_isPlain {c : Char} (h : isPlain c = true) :
    Quotation.outside.covers c = false := by
  simp only [isPlain, Bool.and_eq_true, Bool.not_eq_true'] at h
  simpa [Quotation.covers] using h.1.1.1.1.1.1.1

/-- A plain character is no comma and no bracket. -/
lemma ne_of_isPlain {c : Char} (h : isPlain c = true) :
    c ≠ ',' ∧ ∀ b : Bracket, c ≠ b.opening ∧ c ≠ b.closing := by
  simp only [isPlain, Bool.and_eq_true, bne_iff_ne] at h
  refine ⟨h.1.1.1.1.1.1.2, fun b => ?_⟩
  cases b <;> simp [Bracket.opening, Bracket.closing, h]

lemma bracketDepth_opening (depth : Nat) (b : Bracket) :
    bracketDepth depth b.opening = depth + 1 := by
  cases b <;> rfl

lemma bracketDepth_closing (depth : Nat) (b : Bracket) :
    bracketDepth (depth + 1) b.closing = depth := by
  cases b <;> rfl

/-- The search for the closing parenthesis: only round groups are deeper, and commas mean
nothing. -/
def closingReader : ExpressionReader (Option (Text × Text)) where
  read := Quotation.closing?
  inner b depth := if b = .round then depth + 1 else depth
  IgnoresCommas _ := True
  covered h := Quotation.closing?_of_depth? (Quotation.depth?_of_covers h _) _
  plain h := by
    have hne := (ne_of_isPlain h).2 .round
    rw [Quotation.closing?_of_depth? (Quotation.depth?_of_ne hne.1 hne.2 _ _),
      Quotation.step_of_not_covers (not_covers_of_isPlain h)]
  comma _ := Quotation.closing?_of_depth? rfl _
  opening b := by
    cases b <;> exact Quotation.closing?_of_depth? rfl _
  closing b := by
    cases b <;> exact Quotation.closing?_of_depth? rfl _
  inner_ignoresCommas _ _ := trivial

/-- The splitting at commas: all groups are deeper, and in a group commas mean nothing. -/
def splitReader : ExpressionReader (List Text) where
  read := splitFrom
  inner _ depth := depth + 1
  IgnoresCommas depth := depth ≠ 0
  covered h := splitFrom_of_covers h _
  plain {depth _ _ c} h := by
    obtain ⟨hcomma, hbracket⟩ := ne_of_isPlain h
    have hdepth : bracketDepth depth c = depth := by
      have hr := hbracket .round
      have hs := hbracket .square
      have hc := hbracket .curly
      simp only [Bracket.opening, Bracket.closing] at hr hs hc
      simp [bracketDepth, hr, hs, hc]
    rw [splitFrom_other (not_covers_of_isPlain h) (Or.inl hcomma), hdepth,
      Quotation.step_of_not_covers (not_covers_of_isPlain h)]
  comma hdepth := splitFrom_other rfl (Or.inr hdepth) _
  opening {depth _ _} b := by
    rw [← bracketDepth_opening depth b]
    cases b <;> exact splitFrom_other rfl (Or.inl (by decide)) _
  closing {depth _ _} b := by
    have h := bracketDepth_closing depth b
    cases b <;> (rw [splitFrom_other rfl (Or.inl (by decide)), h]; rfl)
  inner_ignoresCommas _ depth := Nat.succ_ne_zero depth

/-- The parenthesis after an expression is the first one that closes. -/
lemma Expression.firstClosing {commas : Bool} {e : Text} (h : Expression commas e) (rest : Text) :
    FirstClosing (e ++ ')' :: rest) e rest := by
  have hread : Quotation.outside.closing? 0 [] (e ++ ')' :: rest) =
      Quotation.outside.closing? 0 (e.reverse ++ []) (')' :: rest) :=
    closingReader.read_expression h 0 (fun _ => trivial) [] (')' :: rest)
  refine closingParen?_eq_some_iff.mp (hread.trans ?_)
  rw [Quotation.closing?_of_depth?_eq_none rfl, List.append_nil, List.reverse_reverse]

/-! ### Lists of expressions -/

/-- Expressions with commas between them are split at the commas. -/
lemma splitFrom_intercalate {e : Text} {es : List Text} (h : ∀ x ∈ e :: es, Expression false x)
    (piece : Text) :
    splitFrom .outside 0 piece (List.intercalate [','] (e :: es)) =
      Text.trim (piece.reverse ++ e) :: es.map Text.trim := by
  induction es generalizing e piece with
  | nil =>
      have hread : splitFrom .outside 0 piece (e ++ []) =
          splitFrom .outside 0 (e.reverse ++ piece) [] :=
        splitReader.read_expression (h e List.mem_cons_self) 0 (by simp) piece []
      rw [List.append_nil] at hread
      rw [List.intercalate_singleton, hread, splitFrom, List.reverse_append, List.reverse_reverse]
      rfl
  | cons e' es ih =>
      have hread : ∀ t, splitFrom .outside 0 piece (e ++ t) =
          splitFrom .outside 0 (e.reverse ++ piece) t :=
        splitReader.read_expression (h e List.mem_cons_self) 0 (by simp) piece
      have hrest := ih (fun x hx => h x (List.mem_cons_of_mem _ hx)) []
      rw [List.intercalate_cons_cons, List.append_assoc, hread, List.singleton_append,
        splitFrom_comma_zero rfl, List.reverse_append, List.reverse_reverse, List.map_cons]
      exact congrArg _ hrest

/-- A text that is not blank has something left when trimmed. -/
lemma trim_ne_nil {t : Text} (h : Text.allBlank t = false) : Text.trim t ≠ [] := by
  intro htrim
  have hblank : Text.allBlank (t.dropWhile Text.isBlank) = true := by
    have hrev := Text.allBlank_of_dropWhile_eq_nil (List.reverse_eq_nil_iff.mp htrim)
    simpa [Text.allBlank] using hrev
  cases hd : t.dropWhile Text.isBlank with
  | nil =>
      have := Text.allBlank_of_dropWhile_eq_nil hd
      simp [h] at this
  | cons c cs =>
      have hc := List.head_dropWhile_not Text.isBlank (l := t) (by simp [hd])
      simp only [hd, List.head_cons] at hc
      simp [hd, Text.allBlank, hc] at hblank

/-! ### Arguments -/

/-- An argument of a well-formed opener: an expression without commas outside groups that is not
all white space. -/
structure Argument where
  text : Text
  expression : Expression false text
  notBlank : Text.allBlank text = false

namespace Argument

/-- The text of a list of arguments, with commas between them. -/
def listed (first : Argument) (more : List Argument) : Text :=
  List.intercalate [','] (first.text :: more.map (·.text))

/-- The arguments of a list: a policy alone, or a policy and auxiliary arguments. -/
def classified (first : Argument) : List Argument → Arguments
  | [] => .simple (Text.trim first.text)
  | more => .complex (Text.trim first.text) (more.map fun a => Text.trim a.text)

variable (first : Argument) (more : List Argument)

lemma expression_of_mem_texts {e : Text} (h : e ∈ first.text :: more.map (·.text)) :
    Expression false e := by
  rcases List.mem_cons.mp h with rfl | h
  · exact first.expression
  · obtain ⟨a, -, rfl⟩ := List.mem_map.mp h
    exact a.expression

/-- The parenthesis after a list of arguments is the first one that closes. -/
lemma firstClosing_listed (rest : Text) :
    FirstClosing (listed first more ++ ')' :: rest) (listed first more) rest :=
  (Expression.intercalate fun _ h => expression_of_mem_texts first more h).firstClosing rest

lemma splitArguments_listed :
    splitArguments (listed first more) =
      Text.trim first.text :: more.map fun a => Text.trim a.text := by
  have h := splitFrom_intercalate (fun _ h => expression_of_mem_texts first more h) []
  rw [List.reverse_nil, List.nil_append, List.map_map] at h
  exact h

/-- A list of arguments is read back, each without the white space at its ends. -/
lemma parse_listed : Arguments.parse (listed first more) = .ok (classified first more) := by
  rw [Arguments.parse_eq_ok_iff, splitArguments_listed]
  constructor
  · intro h
    rcases List.mem_cons.mp h with h | h
    · exact trim_ne_nil first.notBlank h.symm
    · obtain ⟨a, -, ha⟩ := List.mem_map.mp h
      exact trim_ne_nil a.notBlank ha
  · cases more <;> rfl

end Argument

end TemplateGuards
