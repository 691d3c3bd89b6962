import TemplateGuards.Proofs.Expression
import TemplateGuards.Proofs.ParenthesisDepth
import TemplateGuards.Proofs.Sighting
import TemplateGuards.Proofs.Substitution

/-!
The call of the enforcer that an opener becomes.  What an author writes as arguments stays between
the parentheses of the call: the parenthesis behind the method is closed by the one that the
dialect's template writes for it, though single pieces of the arguments need not be balanced.

* `LeadsAll`, `splitArguments_leadsAll`: the pieces of an argument text, each leading on from the
  depth at which the one before it ends;
* `Outline.Scanned.leads`: the arguments of an opener lead from no open parentheses to none;
* `Placeholder.fill_append`: a text without braces in a template;
* `Dialect.WritesCall`: a template that writes a call, which is rendered as that call
  (`Dialect.renderOpener_of_writesCall`);
* `renderOpener_closingParen`: the closing parenthesis of the call, in the presets.
-/

namespace TemplateGuards

/-! ### The pieces of an argument text -/

/-- The texts lead on one after the other from a number of open parentheses to another. -/
inductive LeadsAll : Nat → List Text → Nat → Prop
  | nil (depth : Nat) : LeadsAll depth [] depth
  | cons {depth depth' depth'' : Nat} {t : Text} {ts : List Text} (ht : Leads depth t depth')
      (hts : LeadsAll depth' ts depth'') : LeadsAll depth (t :: ts) depth''

/-- The pieces of the rest of an argument text lead on as what has been read of the current piece
and the rest do. -/
lemma splitFrom_leadsAll {q : Quotation} {brackets first mid last : Nat} {piece args : Text}
    (hpiece : Quotation.outside.after piece.reverse = q ∧
      Quotation.outside.depthAfter? first piece.reverse = some mid)
    (hargs : q.after args = .outside ∧ q.depthAfter? mid args = some last) :
    LeadsAll first (splitFrom q brackets piece args) last := by
  induction args generalizing q brackets first mid piece with
  | nil =>
      obtain ⟨rfl, hdepth⟩ := hargs
      cases hdepth
      exact .cons (Leads.trim hpiece) (.nil last)
  | cons c cs ih =>
      obtain ⟨hafter, hdepth⟩ := hargs
      obtain ⟨next, hc, hcs⟩ := Quotation.depthAfter?_cons_eq_some_iff.mp hdepth
      -- the character goes into the piece
      have hgrow : Quotation.outside.after (c :: piece).reverse = q.step c ∧
          Quotation.outside.depthAfter? first (c :: piece).reverse = some next := by
        rw [List.reverse_cons, Quotation.after_append, hpiece.1]
        refine ⟨rfl, Quotation.depthAfter?_append_eq_some_iff.mpr ⟨mid, hpiece.2, ?_⟩⟩
        rw [hpiece.1]
        exact Quotation.depthAfter?_cons_eq_some_iff.mpr ⟨next, hc, rfl⟩
      unfold splitFrom
      split
      · exact ih hgrow ⟨hafter, hcs⟩
      · next hcov =>
        split
        · next hcomma =>
          obtain rfl := Quotation.eq_outside_of_not_covers (Bool.not_eq_true _ ▸ hcov)
          obtain ⟨rfl, -⟩ := hcomma
          cases hc
          refine .cons (Leads.trim hpiece) (ih ⟨rfl, rfl⟩ ⟨hafter, hcs⟩)
        · exact ih hgrow ⟨hafter, hcs⟩

/-- **The pieces of a text that leads on lead on**, whatever commas they were split at. -/
lemma splitArguments_leadsAll {args : Text} {first last : Nat} (h : Leads first args last) :
    LeadsAll first (splitArguments args) last :=
  splitFrom_leadsAll ⟨rfl, rfl⟩ h

/-- Texts that lead on do so with a level text between them. -/
lemma LeadsAll.intercalate {sep : Text} (hsep : Leads 0 sep 0) {ts : List Text} {first last : Nat}
    (h : LeadsAll first ts last) : Leads first (sep.intercalate ts) last := by
  induction h with
  | nil depth => exact .nil depth
  | @cons depth depth' depth'' t ts ht hts ih =>
      cases ts with
      | nil =>
          cases hts
          simpa using ht
      | cons t' ts =>
          rw [List.intercalate_cons_cons]
          exact (ht.append (hsep.level depth')).append ih

/-- The arguments of an opener lead from no open parentheses to none. -/
lemma Outline.Scanned.leads {place place' : Place} {gap s args : Text} {o : Outline} {kind : Kind}
    (h : Scanned place gap s o) (hm : .opener kind args place' ∈ o.markers) : Leads 0 args 0 := by
  induction h with
  | nil => simp [Outline.markers] at hm
  | ordinary _ _ ih => exact ih hm
  | live hend hmarker _ ih =>
      obtain ⟨-, hregion, -⟩ := Region.marker?_eq_some_iff.mp hmarker
      rw [Outline.markers_mark, List.mem_cons] at hm
      rcases hm with rfl | hm
      · rw [← hregion] at hend
        exact firstClosing_iff_leads.mp hend
      · exact ih hm
  | escaped _ _ _ ih => exact ih hm

/-! ### Filling a template -/

namespace Placeholder

variable (value : Placeholder → Text)

/-- A placeholder starts with a brace. -/
lemma read?_of_ne {c : Char} (h : c ≠ '\x7b') (s : Text) : read? (c :: s) = none :=
  read?_eq_none_iff.mpr fun _ hp => h (List.cons_prefix_cons.mp hp).1.symm

/-- A text without braces is copied. -/
lemma fill_append {t : Text} (h : '\x7b' ∉ t) (s : Text) :
    fill value (t ++ s) = t ++ fill value s := by
  induction t with
  | nil => rfl
  | cons c t ih =>
      rw [List.mem_cons, not_or] at h
      rw [List.cons_append, fill_cons value (read?_of_ne (Ne.symm h.1) _), ih h.2]
      rfl

end Placeholder

/-! ### The call -/

namespace Dialect

/-- What a template writes between the parentheses of a call. -/
def callTemplate : Arguments → Text
  | .simple _ => Placeholder.policy.token ++ (", " ++ Placeholder.user.token)
  | .complex .. => Placeholder.policy.token ++ (", " ++ (Placeholder.user.token ++
      (", [" ++ (Placeholder.aux.token ++ "]"))))

/-- What stands between the parentheses of a call. -/
def call (d : Dialect) : Arguments → Text
  | .simple policy => policy ++ (", " ++ d.user)
  | .complex policy aux => policy ++ (", " ++ (d.user ++
      (", [" ++ (d.auxSeparator.intercalate aux ++ "]"))))

/-- Does the template write a call?  A parenthesis stands right behind the method, and one that
closes it right behind the rest of the call. -/
def WritesCall (template call lead tail : Text) : Prop :=
  template = lead ++ (Placeholder.method.token ++ '(' :: (call ++ ')' :: tail)) ∧
    '\x7b' ∉ lead ∧ '\x7b' ∉ tail

instance (template call lead tail : Text) : Decidable (WritesCall template call lead tail) :=
  inferInstanceAs (Decidable (_ ∧ _ ∧ _))

variable {d : Dialect} {a : Arguments}

/-- Between the parentheses the template is filled with the arguments and the user. -/
lemma fill_callTemplate_append (kind : Kind) (s : Text) :
    Placeholder.fill (d.value kind a) (callTemplate a ++ s) =
      d.call a ++ Placeholder.fill (d.value kind a) s := by
  have hcomma : '\x7b' ∉ (", " : Text) := by decide
  have hlist : '\x7b' ∉ (", [" : Text) := by decide
  have hend : '\x7b' ∉ ("]" : Text) := by decide
  cases a with
  | simple policy =>
      simp only [callTemplate, List.append_assoc, Placeholder.fill_token_append,
        Placeholder.fill_append _ hcomma, call, value, Arguments.policy]
  | complex policy aux =>
      simp only [callTemplate, List.append_assoc, Placeholder.fill_token_append,
        Placeholder.fill_append _ hcomma, Placeholder.fill_append _ hlist,
        Placeholder.fill_append _ hend, call, value, Arguments.policy, Arguments.aux]

/-- A template that writes a call is rendered as that call. -/
lemma renderOpener_of_writesCall {lead tail : Text}
    (h : WritesCall (d.template a) (callTemplate a) lead tail) (kind : Kind) :
    d.renderOpener kind a = lead ++ (kind.name ++ '(' :: (d.call a ++ ')' :: tail)) := by
  obtain ⟨htemplate, hlead, htail⟩ := h
  have hrest : Placeholder.fill (d.value kind a) tail = tail := by
    simpa [Placeholder.fill_nil] using Placeholder.fill_append (d.value kind a) htail []
  rw [renderOpener, htemplate, Placeholder.fill_append _ hlead, Placeholder.fill_token_append,
    Placeholder.fill_cons _ (Placeholder.read?_of_ne (by decide) _), fill_callTemplate_append,
    Placeholder.fill_cons _ (Placeholder.read?_of_ne (by decide) _), hrest]
  rfl

/-- **A call is closed by what follows it**, where the user and the separator are level: the pieces
of the arguments need not be, but together they are. -/
lemma leads_call (huser : Leads 0 d.user 0) (hsep : Leads 0 d.auxSeparator 0) {args : Text}
    (hargs : Leads 0 args 0) (ha : Arguments.parse args = .ok a) : Leads 0 (d.call a) 0 := by
  have hcomma : Leads 0 ", " 0 := by decide
  have hlist : Leads 0 ", [" 0 := by decide
  have hend : Leads 0 "]" 0 := by decide
  have hpieces := splitArguments_leadsAll hargs
  obtain ⟨-, rfl⟩ := Arguments.parse_eq_ok_iff.mp ha
  cases hsplit : splitArguments args with
  | nil => exact absurd hsplit (splitArguments_ne_nil args)
  | cons policy aux =>
      rw [hsplit] at hpieces
      cases hpieces with
      | @cons _ depth _ _ _ hpolicy haux =>
          cases aux with
          | nil =>
              cases haux
              exact hpolicy.append (hcomma.append huser)
          | cons first more =>
              have hjoined := haux.intercalate hsep
              exact hpolicy.append ((hcomma.level depth).append ((huser.level depth).append
                ((hlist.level depth).append (hjoined.append hend))))

end Dialect

/-! ### The presets -/

lemma Preset.writesCall (preset : Preset) (a : Arguments) :
    ∃ lead tail,
      Dialect.WritesCall (preset.dialect.template a) (Dialect.callTemplate a) lead tail := by
  -- the templates depend on the form of the arguments only, so any arguments of a form do
  have hsimple : ∃ lead tail, Dialect.WritesCall (preset.dialect.template (.simple []))
      (Dialect.callTemplate (.simple [])) lead tail := by
    cases preset with
    | blade => exact ⟨"<?php if ($enforcer->", " === true): ?>", by decide +kernel⟩
    | neutral => exact ⟨"IF enforcer.", " == true THEN", by decide +kernel⟩
  have hcomplex : ∃ lead tail, Dialect.WritesCall (preset.dialect.template (.complex [] []))
      (Dialect.callTemplate (.complex [] [])) lead tail := by
    cases preset with
    | blade => exact ⟨"<?php if ($enforcer->", " === true) : ?>", by decide +kernel⟩
    | neutral => exact ⟨"IF enforcer.", " == true THEN", by decide +kernel⟩
  cases a with
  | simple policy => exact hsimple
  | complex policy aux => exact hcomplex

lemma Preset.leads_user_auxSeparator (preset : Preset) :
    Leads 0 preset.dialect.user 0 ∧ Leads 0 preset.dialect.auxSeparator 0 := by
  cases preset <;> decide

/-- **Arguments do not break out of the call.**  In a preset the template of an opener writes a
parenthesis right behind the method and one right behind the user, or behind the `]` after the
auxiliary arguments; and in what the opener becomes the one is closed by the other. -/
theorem renderOpener_closingParen (preset : Preset) (source : Text) (o : Outline) (kind : Kind)
    (args : Text) (place : Place) (a : Arguments) (ho : Outline.ofText source = .ok o)
    (hm : .opener kind args place ∈ o.markers) (ha : Arguments.parse args = .ok a) :
    ∃ lead tail,
      preset.dialect.template a =
        lead ++ (Placeholder.method.token ++ '(' :: (Dialect.callTemplate a ++ ')' :: tail)) ∧
      preset.dialect.renderOpener kind a =
        lead ++ (kind.name ++ '(' :: (preset.dialect.call a ++ ')' :: tail)) ∧
      closingParen? (preset.dialect.call a ++ ')' :: tail) = some (preset.dialect.call a, tail) := by
  obtain ⟨lead, tail, htemplate⟩ := preset.writesCall a
  obtain ⟨huser, hsep⟩ := preset.leads_user_auxSeparator
  have hcall : Leads 0 (preset.dialect.call a) 0 :=
    Dialect.leads_call huser hsep ((Outline.scan_eq_ok_iff.mp ho).leads hm) ha
  exact ⟨lead, tail, htemplate.1, Dialect.renderOpener_of_writesCall htemplate kind,
    closingParen?_eq_some_iff.mpr (firstClosing_iff_leads.mpr hcall)⟩

/-- Pieces that are not balanced, a parenthesis in a literal, and one more after the call. -/
theorem renderOpener_closingParen_unbalanced :
    let source : Text := "x)@denies( (a] , ')', b)))@enddenies"
    let a : Arguments := .complex "(a]" ["')'", "b)"]
    let call : Text := "(a], \\Auth::user(), [')',b)]"
    ∃ o lead tail, Outline.ofText source = .ok o ∧
      .opener .denies " (a] , ')', b)" ⟨2, 1, 3⟩ ∈ o.markers ∧
      Arguments.parse " (a] , ')', b)" = .ok a ∧
      Preset.blade.dialect.template a =
        lead ++ (Placeholder.method.token ++ '(' :: (Dialect.callTemplate a ++ ')' :: tail)) ∧
      Preset.blade.dialect.renderOpener .denies a =
        lead ++ ("denies" ++ '(' :: (call ++ ')' :: tail)) ∧
      closingParen? (call ++ ')' :: tail) = some (call, tail) := by
  intro source a call
  have ho : Outline.ofText source = .ok
      ⟨[⟨"x)", .opener .denies " (a] , ')', b)" ⟨2, 1, 3⟩⟩,
        ⟨")", .ender .denies ⟨26, 1, 27⟩⟩], ""⟩ := by decide +kernel
  have hm : .opener .denies " (a] , ')', b)" ⟨2, 1, 3⟩ ∈ Outline.markers
      ⟨[⟨"x)", .opener .denies " (a] , ')', b)" ⟨2, 1, 3⟩⟩,
        ⟨")", .ender .denies ⟨26, 1, 27⟩⟩], ""⟩ := by decide
  have ha : Arguments.parse " (a] , ')', b)" = .ok a := by decide
  obtain ⟨lead, tail, htemplate, hrender, hclose⟩ :=
    renderOpener_closingParen .blade source _ .denies _ _ a ho hm ha
  exact ⟨_, lead, tail, ho, hm, ha, htemplate, hrender, hclose⟩

end TemplateGuards
