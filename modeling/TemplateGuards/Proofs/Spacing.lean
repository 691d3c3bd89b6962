import TemplateGuards.Proofs.Expression
import TemplateGuards.Proofs.Sighting
import TemplateGuards.Text.Blank

/-!
Well-formed arguments with white space on their sides.  White space is plain, so an argument with
white space around it is an argument again; an opener with such arguments is read back whatever
follows it, and the white space is gone from what it says.

* `SpacedArgument`: an argument with white space around it, which is one itself
  (`SpacedArgument.toArgument`);
* `SpacedArgument.listed`: the text of a list of them, with commas in between;
* `Outline.ofText_opener_append`: a text that starts with an opener;
* `Outline.ofText_spaced`: the opener is the first marker, and its arguments are those of the list.
-/

namespace TemplateGuards

/-- White space is plain. -/
lemma isPlain_of_isBlank {c : Char} (h : Text.isBlank c = true) : isPlain c = true := by
  have hother : ∀ d : Char, Text.isBlank d = false → c ≠ d := fun d => Text.ne_of_isBlank h
  simp [isPlain, Quotation.isMark, hother '\'' (by decide), hother '"' (by decide),
    hother ',' (by decide), hother '(' (by decide), hother ')' (by decide), hother '[' (by decide),
    hother ']' (by decide), hother '\x7b' (by decide), hother '\x7d' (by decide)]

lemma Expression.of_allBlank {commas : Bool} {t : Text} (h : Text.allBlank t = true) :
    Expression commas t :=
  .of_all (List.all_eq_true.mpr fun c hc => isPlain_of_isBlank (List.all_eq_true.mp h c hc))

/-- An argument with white space around it. -/
structure SpacedArgument where
  before : Text
  argument : Argument
  after : Text
  before_blank : Text.allBlank before = true
  after_blank : Text.allBlank after = true

namespace SpacedArgument

/-- The text of the argument with the white space around it. -/
def text (a : SpacedArgument) : Text := a.before ++ a.argument.text ++ a.after

lemma trim_text (a : SpacedArgument) : Text.trim a.text = Text.trim a.argument.text :=
  Text.trim_append a.before_blank a.after_blank a.argument.text

/-- With white space around it an argument is an argument. -/
def toArgument (a : SpacedArgument) : Argument where
  text := a.text
  expression := (Expression.of_allBlank a.before_blank).append a.argument.expression
    |>.append (Expression.of_allBlank a.after_blank)
  notBlank := by
    have hblank := a.argument.notBlank
    rw [Text.allBlank] at hblank
    rw [text, Text.allBlank, List.all_append, List.all_append, hblank]
    simp

variable (first : SpacedArgument) (more : List SpacedArgument)

/-- The text of a list of them, with commas in between. -/
def listed : Text := [','].intercalate (first.text :: more.map text)

lemma listed_eq : listed first more = Argument.listed first.toArgument (more.map toArgument) := by
  rw [Argument.listed, List.map_map]
  rfl

/-- The white space does not matter to what the list says. -/
lemma classified_eq :
    Argument.classified first.toArgument (more.map toArgument) =
      Argument.classified first.argument (more.map argument) := by
  have hfirst : Text.trim first.toArgument.text = Text.trim first.argument.text := first.trim_text
  have hmore : ∀ a : SpacedArgument, Text.trim a.toArgument.text = Text.trim a.argument.text :=
    trim_text
  cases more with
  | nil => simp only [List.map_nil, Argument.classified, hfirst]
  | cons a more =>
      simp only [List.map_cons, Argument.classified, List.map_map, hfirst, hmore,
        Function.comp_def]

end SpacedArgument

/-- A text that starts with an opener is outlined as what follows the opener, with its marker in
front. -/
lemma Outline.ofText_opener_append {kind : Kind} {args rest : Text}
    (h : FirstClosing (args ++ ')' :: rest) args rest) :
    Outline.ofText ((Region.opener kind args).source ++ rest) =
      (Outline.scan (Place.start.advance (Region.opener kind args).source) [] rest).map
        (Outline.mark [] (.opener kind args Place.start)) :=
  Outline.scan_of_live (Sighting.ofText_source_append h) rfl

/-- **An opener with well-formed arguments is read back**, whatever follows it and with any white
space around its arguments: it is the first marker, with all the text between its parentheses, and
its arguments are those of the list, trimmed. -/
theorem Outline.ofText_spaced (kind : Kind) (first : SpacedArgument) (more : List SpacedArgument)
    (rest : Text) (o : Outline)
    (h : Outline.ofText ((Region.opener kind (SpacedArgument.listed first more)).source ++ rest) =
      .ok o) :
    o.markers.head? = some (.opener kind (SpacedArgument.listed first more) Place.start) ∧
      readArguments kind (SpacedArgument.listed first more) Place.start.position =
        .ok (Argument.classified first.argument (more.map (·.argument))) := by
  rw [SpacedArgument.listed_eq] at h ⊢
  constructor
  · rw [Outline.ofText_opener_append (Argument.firstClosing_listed _ _ rest)] at h
    cases hrest : Outline.scan _ [] rest with
    | error f =>
        rw [hrest] at h
        cases h
    | ok o' =>
        rw [hrest] at h
        cases h
        rfl
  · rw [readArguments_eq_ok_iff, Argument.parse_listed, SpacedArgument.classified_eq]

/-- A literal with an escaped mark and a parenthesis, a group with a list and a literal in it, and
lines around both. -/
theorem Outline.ofText_spaced_lines :
    let args : Text := "\n '\\'),(' ,\n\tf([x, y], \"\x7d\")\n"
    let source : Text := '@' :: ("denies(" ++ args ++ ")b)@@allows('@enddenies")
    ∃ o, Outline.ofText source = .ok o ∧
      o.markers.head? = some (.opener .denies args ⟨0, 1, 1⟩) ∧
      readArguments .denies args ⟨1, 1⟩ = .ok (.complex "'\\'),('" ["f([x, y], \"\x7d\")"]) := by
  intro args source
  let first : SpacedArgument :=
    { before := "\n "
      argument :=
        { text := '\'' :: ('\\' :: '\'' :: "),(" ++ ['\''])
          expression := .literal rfl (.escape '\'' (.of_not_mem (by decide) (by decide))) .nil
          notBlank := by decide }
      after := " "
      before_blank := by decide
      after_blank := by decide }
  let second : SpacedArgument :=
    { before := "\n\t"
      argument :=
        { text := "f" ++ '(' :: (('[' :: ("x" ++ ',' :: " y" ++ ']' :: ',' ::
            (" " ++ '"' :: ("\x7d" ++ ['"'])))) ++ [')'])
          expression := .append (.of_all (by decide)) (.group .round
            (.group .square (.append (.of_all (by decide)) (.comma (.of_all (by decide))))
              (.comma (.append (.of_all (by decide)) (.literal rfl
                (.of_not_mem (by decide) (by decide)) .nil)))) .nil)
          notBlank := by decide }
      after := "\n"
      before_blank := by decide
      after_blank := by decide }
  have hargs : SpacedArgument.listed first [second] = args := by decide +kernel
  have hsource : (Region.opener .denies (SpacedArgument.listed first [second])).source ++
      ("b)@@allows('@enddenies" : Text) = source := by decide +kernel
  have ho : Outline.ofText source = .ok ⟨[⟨[], .opener .denies args ⟨0, 1, 1⟩⟩,
      ⟨"b)@@allows('", .ender .denies ⟨49, 4, 14⟩⟩], []⟩ := by decide +kernel
  have hread := Outline.ofText_spaced .denies first [second] _ _ (by rw [hsource]; exact ho)
  rw [hargs] at hread
  exact ⟨_, ho, hread⟩

end TemplateGuards
