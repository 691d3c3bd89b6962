import Mathlib.Data.List.Forall2
import Mathlib.Tactic.Common
import TemplateGuards.Report.Format

/-!
Reports for people with and without colours.  An escape sequence of a terminal is the escape
character, an opening bracket, digits and the letter `m`.  Colours add such sequences and nothing
else: where none of the texts that are shown holds an escape character, deleting the sequences from
the coloured report leaves the plain one, whatever brackets, digits and letters the texts hold.

* `Text.afterSequence?`, `Text.dropSequences`: escape sequences, and a text without them;
* `Fades`: a text that deletion makes another one, whatever follows;
* `Fades.append`, `Fades.paint`, `Fades.intercalate`: how such texts are put together;
* `Report.Printable`: a report whose texts hold no escape character;
* `Human.dropSequences_render`: **colours only add escape sequences**.
-/

namespace TemplateGuards

/-! ### Escape sequences -/

namespace Text

/-- The text behind the escape sequence at its start. -/
def afterSequence? : Text → Option Text
  | '\x1b' :: '[' :: d :: cs =>
    if d.isDigit then
      match cs.dropWhile Char.isDigit with
      | 'm' :: rest => some rest
      | _ => none
    else none
  | _ => none

/-- An escape sequence is not empty. -/
lemma length_lt_of_afterSequence? {t rest : Text} (h : afterSequence? t = some rest) :
    rest.length < t.length := by
  unfold afterSequence? at h
  split at h
  · next d cs =>
      have hle := (List.dropWhile_sublist Char.isDigit (l := cs)).length_le
      split at h
      · split at h
        · next hdrop =>
            obtain rfl := Option.some.inj h
            rw [hdrop] at hle
            simp only [List.length_cons] at hle ⊢
            omega
        · cases h
      · cases h
  · cases h

/-- The text without its escape sequences. -/
def dropSequences (t : Text) : Text :=
  match _h : afterSequence? t with
  | some rest => dropSequences rest
  | none =>
    match t with
    | [] => []
    | c :: cs => c :: dropSequences cs
termination_by t.length
decreasing_by
  · exact length_lt_of_afterSequence? _h
  · exact Nat.lt_succ_self _

@[simp] lemma dropSequences_nil : dropSequences [] = [] := by
  rw [dropSequences]
  rfl

/-- A character other than the escape character is kept. -/
lemma dropSequences_cons {c : Char} (hc : c ≠ '\x1b') (t : Text) :
    dropSequences (c :: t) = c :: dropSequences t := by
  have hnone : afterSequence? (c :: t) = none := by
    unfold afterSequence?
    split
    · next heq => exact absurd (List.cons.inj heq).1 hc
    · rfl
  rw [dropSequences]
  split
  · next hsome => exact nomatch hnone.symm.trans hsome
  · rfl

/-- An escape sequence is deleted. -/
lemma dropSequences_sequence {code : Text} (hcode : code ≠ [])
    (hdigits : code.all Char.isDigit = true) (t : Text) :
    dropSequences ('\x1b' :: '[' :: code ++ 'm' :: t) = dropSequences t := by
  obtain ⟨d, ds, rfl⟩ := List.exists_cons_of_ne_nil hcode
  obtain ⟨hd, hds⟩ := List.forall_mem_cons.mp (List.all_eq_true.mp hdigits)
  have hdrop : (ds ++ 'm' :: t).dropWhile Char.isDigit = 'm' :: t := by
    rw [List.dropWhile_append_of_pos hds]
    rfl
  have hsome : afterSequence? ('\x1b' :: '[' :: d :: (ds ++ 'm' :: t)) = some t := by
    simp only [afterSequence?, hd, hdrop, if_true]
  rw [List.cons_append, List.cons_append, List.cons_append, dropSequences]
  split
  · next hsome' => rw [Option.some.inj (hsome.symm.trans hsome')]
  · next hnone => exact nomatch hsome.symm.trans hnone

end Text

/-! ### Texts that fade -/

/-- Deletion makes the coloured text the plain one, whatever follows. -/
def Fades (coloured plain : Text) : Prop :=
  ∀ rest, Text.dropSequences (coloured ++ rest) = plain ++ Text.dropSequences rest

namespace Fades

variable {s t u v : Text}

lemma nil : Fades [] [] := fun _ => rfl

lemma append (h : Fades s t) (h' : Fades u v) : Fades (s ++ u) (t ++ v) := by
  intro rest
  rw [List.append_assoc, h, h', List.append_assoc]

/-- A text without an escape character stays as it is. -/
lemma refl (h : '\x1b' ∉ t) : Fades t t := by
  intro rest
  induction t with
  | nil => rfl
  | cons c t ih =>
      obtain ⟨hc, ht⟩ := not_or.mp (mt List.mem_cons.mpr h)
      rw [List.cons_append, Text.dropSequences_cons (Ne.symm hc), ih ht, List.cons_append]

/-- An escape sequence fades to nothing. -/
lemma sequence {code : Text} (hcode : code ≠ []) (hdigits : code.all Char.isDigit = true) :
    Fades ('\x1b' :: '[' :: code ++ ['m']) [] := by
  intro rest
  rw [List.append_assoc]
  exact Text.dropSequences_sequence hcode hdigits rest

/-- A text in an ink fades to the text. -/
lemma paint (ink : Human.Ink) (h : '\x1b' ∉ t) :
    Fades (Human.paint true ink t) (Human.paint false ink t) := by
  have hbefore : Fades ("\x1b[" ++ ink.code ++ "m") [] :=
    sequence (by cases ink <;> decide) (by cases ink <;> decide)
  have hafter : Fades ('\x1b' :: '[' :: ['0'] ++ ['m']) [] := sequence (by decide) (by decide)
  simpa [Human.paint] using (hbefore.append (refl h)).append hafter

/-- Lists of texts that fade one by one. -/
abbrev All : List Text → List Text → Prop := List.Forall₂ Fades

/-- Texts that fade one by one fade when they are joined. -/
lemma intercalate {ss ts : List Text} (hsep : Fades s t) (h : All ss ts) :
    Fades (s.intercalate ss) (t.intercalate ts) := by
  induction h with
  | nil => exact nil
  | @cons a b ss ts hab h ih =>
      cases h with
      | nil => simpa using hab
      | cons hcd h =>
          rw [List.intercalate_cons_cons, List.intercalate_cons_cons]
          exact (hab.append hsep).append ih

lemma All.append {ss ts us vs : List Text} (h : All ss ts) (h' : All us vs) :
    All (ss ++ us) (ts ++ vs) :=
  List.rel_append h h'

lemma All.flatMap {α : Type} {l : List α} {f g : α → List Text} (h : ∀ a ∈ l, All (f a) (g a)) :
    All (l.flatMap f) (l.flatMap g) := by
  induction l with
  | nil => exact .nil
  | cons a l ih =>
      obtain ⟨ha, hl⟩ := List.forall_mem_cons.mp h
      rw [List.flatMap_cons, List.flatMap_cons]
      exact ha.append (ih hl)

end Fades

/-! ### Reports -/

/-- The texts of the diagnostic hold no escape character. -/
structure Diagnostic.Printable (d : Diagnostic) : Prop where
  code : '\x1b' ∉ d.code
  message : '\x1b' ∉ d.message
  suggestion : ∀ s ∈ d.suggestion?, '\x1b' ∉ s

/-- The texts of the report that are shown hold no escape character. -/
structure Report.Printable (r : Report) : Prop where
  path : '\x1b' ∉ r.path
  diagnostics : ∀ d ∈ r.diagnostics, d.Printable

instance (d : Diagnostic) : Decidable d.Printable :=
  decidable_of_iff ('\x1b' ∉ d.code ∧ '\x1b' ∉ d.message ∧ ∀ s ∈ d.suggestion?, '\x1b' ∉ s)
    ⟨fun ⟨hc, hm, hs⟩ => ⟨hc, hm, hs⟩, fun h => ⟨h.code, h.message, h.suggestion⟩⟩

instance (r : Report) : Decidable r.Printable :=
  decidable_of_iff ('\x1b' ∉ r.path ∧ ∀ d ∈ r.diagnostics, d.Printable)
    ⟨fun ⟨hp, hd⟩ => ⟨hp, hd⟩, fun h => ⟨h.path, h.diagnostics⟩⟩

lemma Text.escape_not_mem_ofNat (n : Nat) : '\x1b' ∉ Text.ofNat n := fun h =>
  absurd (Nat.isDigit_of_mem_toDigits (by decide) (by decide) h) (by decide)

namespace Human

lemma escape_not_mem_count (n : Nat) {thing : Text} (h : '\x1b' ∉ thing) :
    '\x1b' ∉ count n thing := by
  unfold count
  split <;> simp [Text.escape_not_mem_ofNat, h]

lemma fades_diagnosticLines {d : Diagnostic} (h : d.Printable) :
    Fades.All (diagnosticLines true d) (diagnosticLines false d) := by
  have hposition : '\x1b' ∉ d.position.toText := by
    simp [Position.toText, Text.escape_not_mem_ofNat]
  have hlevel : '\x1b' ∉ Named.name d.level := by cases d.level <;> decide
  have hcode : '\x1b' ∉ ("(" ++ d.code ++ ")" : Text) := by simp [h.code]
  have space : Fades " " " " := .refl (by decide)
  refine .cons ?_ ?_
  · have indent : Fades "  " "  " := .refl (by decide)
    have colon : Fades ": " ": " := .refl (by decide)
    have hplace := (indent.append (.paint .cyan hposition)).append colon
    have hkind := (hplace.append (.paint (levelInk d.level) hlevel)).append space
    have hmessage := (hkind.append (.refl h.message)).append space
    exact hmessage.append (.paint .grey hcode)
  · cases hs : d.suggestion? with
    | none => exact .nil
    | some s =>
        have indent : Fades "    " "    " := .refl (by decide)
        have label : '\x1b' ∉ ("Suggestion:" : Text) := by decide
        have hlabel := (indent.append (.paint .cyan label)).append space
        exact .cons (hlabel.append (.refl (h.suggestion s hs))) .nil

lemma fades_reportLines {r : Report} (h : r.Printable) :
    Fades.All (reportLines true r) (reportLines false r) := by
  unfold reportLines
  split
  · exact .nil
  · have hlines := Fades.All.flatMap fun d hd => fades_diagnosticLines (h.diagnostics d hd)
    exact .cons (.paint _ h.path) (hlines.append (.cons .nil .nil))

/-- A count that is left out where it is zero. -/
lemma fades_part (n : Nat) (ink : Ink) {thing : Text} (h : '\x1b' ∉ thing) :
    Fades.All (if n = 0 then [] else [paint true ink (count n thing)])
      (if n = 0 then [] else [paint false ink (count n thing)]) := by
  split
  · exact .nil
  · exact .cons (.paint ink (escape_not_mem_count n h)) .nil

lemma fades_found {ss ts : List Text} {s t : Text} (hnone : Fades s t) :
    Fades.All ss ts →
      Fades (match ss with
          | [] => s
          | parts => "Found " ++ List.intercalate ", " parts)
        (match ts with
          | [] => t
          | parts => "Found " ++ List.intercalate ", " parts) := by
  have hfound : Fades "Found " "Found " := .refl (by decide)
  have hcomma : Fades ", " ", " := .refl (by decide)
  intro h
  cases h with
  | nil => exact hnone
  | cons h hs => exact hfound.append (.intercalate hcomma (.cons h hs))

/-- The line of counts has the same form with and without colours. -/
lemma fades_summaryLine (s : Summary) : Fades (summaryLine true s) (summaryLine false s) := by
  have hfiles : '\x1b' ∉ ("No problems found in " : Text) ++ count s.totalFiles "file" := by
    simp [escape_not_mem_count]
  have herrors := fades_part s.errors .red (by decide : '\x1b' ∉ ("error" : Text))
  have hwarnings := fades_part s.warnings .yellow (by decide : '\x1b' ∉ ("warning" : Text))
  exact fades_found (.paint .green hfiles) (herrors.append hwarnings)

/-- **Colours only add escape sequences.**  If no path, code, message or suggestion holds an escape
character, the coloured text without its escape sequences is the plain text, however many reports
and diagnostics there are. -/
theorem dropSequences_render (reports : List Report) (h : ∀ r ∈ reports, r.Printable) :
    Text.dropSequences (render true reports) = render false reports := by
  have hlines := Fades.All.flatMap fun r hr => fades_reportLines (h r hr)
  have hsummary := fades_summaryLine (Summary.ofReports reports)
  have hnewline : Fades "\n" "\n" := .refl (by decide)
  have hrender : Fades (render true reports) (render false reports) :=
    Fades.intercalate hnewline (hlines.append (.cons hsummary .nil))
  simpa using hrender []

/-- Texts that look like the rest of an escape sequence are kept. -/
theorem dropSequences_render_brackets :
    let reports : List Report :=
      [⟨"[1m", "a", none, false, [⟨⟨31, 1⟩, .error, "[0m", "31m", some "[33m["⟩]⟩,
        ⟨"b", "b", some "b", true, []⟩,
        ⟨"m[", "c", some "c", false,
          [⟨⟨2, 90⟩, .warning, "m", "[", none⟩, ⟨⟨3, 1⟩, .warning, "m", "", some "1m"⟩]⟩]
    (∀ r ∈ reports, r.Printable) ∧ render true reports ≠ render false reports ∧
      Text.dropSequences (render true reports) = render false reports := by
  intro reports
  have h : ∀ r ∈ reports, r.Printable := by decide
  exact ⟨h, by decide, dropSequences_render reports h⟩

end Human

end TemplateGuards
