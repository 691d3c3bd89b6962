import TemplateGuards.Proofs.Expression
import TemplateGuards.Proofs.Sighting

/-!
Templates written from a tree: texts without `@`, and blocks with well-formed arguments and a
list of children.  Compiling the text of a tree gives what a walk over the tree gives.

* `Node`: the trees, with their text (`Node.sourceAll`), what they become in a dialect
  (`Node.imageAll`), and the condition that no end marker runs into a name
  (`Node.separatedAll`);
* `Outline.Scans`, `Pairing.Closed`: a text that the scan goes over, and markers that pair up
  among themselves;
* `Node.Compiles`: a text that becomes its image wherever it stands, with one lemma for each
  way to build a tree;
* `compile_sourceAll`: the compiled text of a tree.
-/

namespace TemplateGuards

/-! ### Trees -/

/-- A text without `@`. -/
structure Prose where
  text : Text
  at_not_mem : '@' ∉ text

/-- A node of a template: a text, or a block with its arguments and its children. -/
inductive Node
  | prose (prose : Prose)
  | block (kind : Kind) (first : Argument) (more : List Argument) (body : List Node)

namespace Node

/-- Is the node a block? -/
def isBlock : Node → Bool
  | prose _ => false
  | block .. => true

mutual

/-- The text of a node: a block is an opener with its arguments, its children, and the end
marker of its kind. -/
def source : Node → Text
  | .prose p => p.text
  | .block kind first more body =>
      (Region.opener kind (Argument.listed first more)).source ++
        (sourceAll body ++ (Region.ender kind).source)

/-- The text of a list of nodes. -/
def sourceAll : List Node → Text
  | [] => []
  | n :: ns => source n ++ sourceAll ns

end

mutual

/-- What a node becomes in a dialect: a text stays, a block becomes the conditional of its
arguments, what its children become, and the dialect's close. -/
def image (d : Dialect) : Node → Text
  | .prose p => p.text
  | .block kind first more body =>
      d.renderOpener kind (Argument.classified first more) ++ (imageAll d body ++ d.close)

/-- What a list of nodes becomes in a dialect. -/
def imageAll (d : Dialect) : List Node → Text
  | [] => []
  | n :: ns => image d n ++ imageAll d ns

end

mutual

/-- Is no end marker of the node followed by a character that continues its name, when `after`
is the text after the node? -/
def separated : Node → Text → Bool
  | .prose _, _ => true
  | .block kind _ _ body, after =>
      separatedAll body ((Region.ender kind).source ++ after) && (Tag.ender kind).admits after

/-- Is no end marker of the nodes followed by a character that continues its name? -/
def separatedAll : List Node → Text → Bool
  | [], _ => true
  | n :: ns, after => separated n (sourceAll ns ++ after) && separatedAll ns after

end

/-- A template of texts alone becomes its own text. -/
lemma imageAll_of_any_eq_false (d : Dialect) {ns : List Node} (h : ns.any isBlock = false) :
    imageAll d ns = sourceAll ns := by
  induction ns with
  | nil => rfl
  | cons n ns ih =>
      rw [List.any_cons, Bool.or_eq_false_iff] at h
      cases n with
      | prose p => rw [imageAll, sourceAll, ih h.2, image, source]
      | block kind first more body => simp [isBlock] at h

end Node

/-! ### The scan of a part -/

/-- In front of `after` the scan goes over `s`: it sets the markers of `ms` and comes to `after`
at `place'` with the gap `gap'`. -/
def Outline.Scans (after s : Text) (place : Place) (gap : Text) (ms : List Marked) (place' : Place)
    (gap' : Text) : Prop :=
  ∀ o, Outline.scan place' gap' after = .ok o →
    Outline.scan place gap (s ++ after) = .ok ⟨ms ++ o.marked, o.tail⟩

namespace Outline.Scans

variable {after s t : Text} {place place' place'' : Place} {gap gap' gap'' : Text}
  {ms ms' : List Marked}

lemma nil : Scans after [] place gap [] place gap :=
  fun _ ho => ho

lemma append (hs : Scans (t ++ after) s place gap ms place' gap')
    (ht : Scans after t place' gap' ms' place'' gap'') :
    Scans after (s ++ t) place gap (ms ++ ms') place'' gap'' := by
  intro o ho
  rw [List.append_assoc, hs _ (ht o ho), List.append_assoc]

/-- A text without `@` goes into the gap. -/
lemma prose (h : '@' ∉ s) :
    Scans after s place gap [] (place.advance s) (s.reverse ++ gap) := by
  induction s generalizing place gap with
  | nil => exact nil
  | cons c s ih =>
      intro o ho
      have hc : c ≠ '@' := fun hc => h (hc ▸ List.mem_cons_self)
      have hordinary : Sighting.ofText (c :: (s ++ after)) = .ordinary := by
        simp [Sighting.ofText, hc]
      rw [List.cons_append, scan_of_ordinary hordinary]
      refine ih (fun hs => h (List.mem_cons_of_mem _ hs)) o ?_
      rwa [List.reverse_cons, List.append_assoc] at ho

/-- A live region that ends in front of `after` sets its marker. -/
lemma live {r : Region} {m : Marker} (hend : r.EndsAt after) (hm : r.marker? place = some m) :
    Scans after r.source place gap [⟨gap.reverse, m⟩] (place.advance r.source) [] := by
  intro o ho
  rw [scan_of_live (Sighting.ofText_source_append hend) hm, ho]
  rfl

end Outline.Scans

/-! ### Markers that pair up -/

/-- The markers pair up among themselves into the pieces, whatever waits before them and whatever
comes after them. -/
def Pairing.Closed (ms : List Marked) (pieces : List Piece) : Prop :=
  ∀ tail waiting ms' p, ofMarked .allow tail waiting ms' = .ok p →
    ofMarked .allow tail waiting (ms ++ ms') = .ok ⟨pieces ++ p.pieces, p.warnings⟩

namespace Pairing.Closed

variable {ms ms' : List Marked} {pieces pieces' : List Piece}

lemma nil : Closed [] [] :=
  fun _ _ _ _ hp => hp

lemma append (h : Closed ms pieces) (h' : Closed ms' pieces') :
    Closed (ms ++ ms') (pieces ++ pieces') := by
  intro tail waiting next p hp
  rw [List.append_assoc, h tail waiting _ _ (h' tail waiting next p hp), List.append_assoc]

/-- An opener and an end marker of its kind close what pairs up between them. -/
lemma block {kind : Kind} {args : Text} {a : Arguments} {gap gap' : Text} {place place' : Place}
    (hargs : Arguments.parse args = .ok a) (h : Closed ms pieces) :
    Closed ([⟨gap, .opener kind args place⟩] ++ (ms ++ [⟨gap', .ender kind place'⟩]))
      ([.text gap, .opens kind a] ++ (pieces ++ [.text gap', .closes])) := by
  intro tail waiting next p hp
  have hender : ofMarked .allow tail (⟨kind, place.position⟩ :: waiting)
      (⟨gap', .ender kind place'⟩ :: next) =
        .ok ⟨.text gap' :: .closes :: p.pieces, [] ++ p.warnings⟩ :=
    ofMarked_cons_eq_ok_iff.mpr ⟨.closes, waiting, [], p,
      Marker.admit_ender_eq_ok_iff.mpr ⟨_, rfl, rfl, rfl, rfl⟩, hp, rfl⟩
  have hopener : ofMarked .allow tail waiting (⟨gap, .opener kind args place⟩ ::
      (ms ++ ⟨gap', .ender kind place'⟩ :: next)) = .ok ⟨.text gap :: .opens kind a ::
        (pieces ++ .text gap' :: .closes :: p.pieces), [] ++ p.warnings⟩ :=
    ofMarked_cons_eq_ok_iff.mpr ⟨.opens kind a, _, [], _,
      Marker.admit_opener_eq_ok_iff.mpr ⟨a, hargs, Nesting.judge_allow _ _ _, rfl, rfl⟩,
      h tail _ _ _ hender, rfl⟩
  simpa using hopener

end Pairing.Closed

/-! ### The compilation of a part -/

namespace Node

/-- In front of `after` the text `s` becomes its image: wherever the scan comes to it, it sets
markers that pair up among themselves, and their pieces with the gap left over are the gap from
before and the image.  There are markers exactly when `marked` says so. -/
def Compiles (after s : Text) (image : Dialect → Text) (marked : Bool) : Prop :=
  ∀ place gap, ∃ ms place' gap' pieces, Outline.Scans after s place gap ms place' gap' ∧
    Pairing.Closed ms pieces ∧
    (∀ d : Dialect, d.render pieces ++ gap'.reverse = gap.reverse ++ image d) ∧
    (ms = [] ↔ marked = false)

namespace Compiles

variable {after s t : Text} {f g : Dialect → Text} {marked marked' : Bool}

lemma nil : Compiles after [] (fun _ => []) false :=
  fun place gap => ⟨[], place, gap, [], .nil, .nil, fun d => by simp, by simp⟩

lemma append (hs : Compiles (t ++ after) s f marked) (ht : Compiles after t g marked') :
    Compiles after (s ++ t) (fun d => f d ++ g d) (marked || marked') := by
  intro place gap
  obtain ⟨ms, place', gap', pieces, hscan, hclosed, hrender, hmarked⟩ := hs place gap
  obtain ⟨ms', place'', gap'', pieces', hscan', hclosed', hrender', hmarked'⟩ := ht place' gap'
  refine ⟨ms ++ ms', place'', gap'', pieces ++ pieces', hscan.append hscan',
    hclosed.append hclosed', fun d => ?_, ?_⟩
  · calc d.render (pieces ++ pieces') ++ gap''.reverse
        = d.render pieces ++ (d.render pieces' ++ gap''.reverse) := by simp
      _ = (d.render pieces ++ gap'.reverse) ++ g d := by rw [hrender', List.append_assoc]
      _ = gap.reverse ++ (f d ++ g d) := by rw [hrender, List.append_assoc]
  · rw [List.append_eq_nil_iff, hmarked, hmarked', Bool.or_eq_false_iff]

/-- A text without `@` stays as it is. -/
lemma prose (h : '@' ∉ s) : Compiles after s (fun _ => s) false :=
  fun place gap => ⟨[], place.advance s, s.reverse ++ gap, [], .prose h, .nil,
    fun d => by simp, by simp⟩

/-- A block becomes the conditional of its arguments, what its body becomes, and a close. -/
lemma block {kind : Kind} {first : Argument} {more : List Argument}
    (hafter : (Tag.ender kind).admits after = true)
    (hbody : Compiles ((Region.ender kind).source ++ after) s f marked) :
    Compiles after ((Region.opener kind (Argument.listed first more)).source ++
        (s ++ (Region.ender kind).source))
      (fun d => d.renderOpener kind (Argument.classified first more) ++ (f d ++ d.close))
      true := by
  intro place gap
  let opened := place.advance (Region.opener kind (Argument.listed first more)).source
  obtain ⟨ms, place', gap', pieces, hscan, hclosed, hrender, -⟩ := hbody opened []
  have hopener : Outline.Scans (s ++ (Region.ender kind).source ++ after)
      (Region.opener kind (Argument.listed first more)).source place gap
      [⟨gap.reverse, .opener kind (Argument.listed first more) place⟩] opened [] :=
    .live (Argument.firstClosing_listed first more _) rfl
  have hender : Outline.Scans after (Region.ender kind).source place' gap'
      [⟨gap'.reverse, .ender kind place'⟩] (place'.advance (Region.ender kind).source) [] :=
    .live hafter rfl
  refine ⟨_, _, [], _, hopener.append (hscan.append hender),
    .block (Argument.parse_listed first more) hclosed, fun d => ?_, by simp⟩
  have hinner : d.render pieces ++ gap'.reverse = f d := hrender d
  simp [← hinner, Dialect.renderPiece]

end Compiles

mutual

/-- A node becomes what a walk over it gives. -/
lemma compiles_source (n : Node) (after : Text) (hsep : separated n after = true) :
    Compiles after (source n) (image · n) (isBlock n) := by
  cases n with
  | prose p => exact .prose p.at_not_mem
  | block kind first more body =>
      rw [separated, Bool.and_eq_true] at hsep
      have hbody := compiles_sourceAll body ((Region.ender kind).source ++ after) hsep.1
      exact .block hsep.2 hbody

/-- A list of nodes becomes what a walk over it gives. -/
lemma compiles_sourceAll (ns : List Node) (after : Text) (hsep : separatedAll ns after = true) :
    Compiles after (sourceAll ns) (imageAll · ns) (ns.any isBlock) := by
  cases ns with
  | nil => exact .nil
  | cons n ns =>
      rw [separatedAll, Bool.and_eq_true] at hsep
      have hhead := compiles_source n (sourceAll ns ++ after) hsep.1
      have hrest := compiles_sourceAll ns after hsep.2
      exact hhead.append hrest

end

end Node

/-! ### The compiled text -/

/-- **The text of a tree becomes what the tree becomes**, with the preamble in front exactly when
the tree has a block. -/
theorem compile_sourceAll (d : Dialect) (ns : List Node) (h : Node.separatedAll ns [] = true) :
    compile d .allow (Node.sourceAll ns) =
      .ok ⟨(if ns.any Node.isBlock then d.preamble else []) ++ Node.imageAll d ns, []⟩ := by
  obtain ⟨ms, place', gap', pieces, hscan, hclosed, hrender, hmarked⟩ :=
    Node.compiles_sourceAll ns [] h Place.start []
  have hout := hscan _ Outline.scan_nil
  simp only [List.append_nil] at hout
  have hpair := hclosed gap'.reverse [] [] _ (Pairing.ofMarked_nil_eq_ok_iff.mpr ⟨rfl, rfl⟩)
  simp only [List.append_nil] at hpair
  rw [compile_eq_ok_iff]
  refine ⟨_, hout, ?_⟩
  cases hany : ns.any Node.isBlock with
  | false =>
      refine Or.inl ⟨hmarked.mpr hany, ?_⟩
      rw [Node.imageAll_of_any_eq_false d hany]
      rfl
  | true =>
      have hne : ms ≠ [] := by
        intro hnil
        simp [hmarked.mp hnil] at hany
      refine Or.inr ⟨hne, _, hpair, ?_⟩
      have himage : d.render pieces ++ gap'.reverse = Node.imageAll d ns := hrender d
      rw [← himage]
      simp [Dialect.renderPiece]

/-- A literal with an escaped mark, a parenthesis and an end marker in it. -/
def Argument.literalSample : Argument where
  text := '\'' :: ('\\' :: '\'' :: ")@endallows" ++ ['\''])
  expression := .literal rfl (.escape '\'' (.of_not_mem (by decide) (by decide))) .nil
  notBlank := by decide

/-- A group with a comma and a group in it. -/
def Argument.groupSample : Argument where
  text := " f" ++ '(' :: ("x" ++ ',' :: '[' :: ("y" ++ [']']) ++ [')'])
  expression := .append (.of_all (by decide)) (.group .round
    (.append (.of_all (by decide)) (.comma (.group .square (.of_all (by decide)) .nil))) .nil)
  notBlank := by decide

/-- A block in a block, with a literal that holds an end marker and groups that hold commas. -/
theorem compile_sourceAll_nested :
    let ns : List Node :=
      [.prose ⟨"a", by decide⟩, .block .allows .literalSample [.groupSample]
        [.prose ⟨"b", by decide⟩, .block .denies .groupSample [] []], .prose ⟨"!", by decide⟩]
    let source : Text :=
      "a@allows('\\')@endallows', f(x,[y]))b@denies( f(x,[y]))@enddenies@endallows!"
    Node.separatedAll ns [] = true ∧ Node.sourceAll ns = source ∧
      compile Preset.neutral.dialect .allow source = .ok ⟨"LET enforcer = lookup(\"policies\")\n" ++
        "aIF enforcer.allows('\\')@endallows', currentUser(), [f(x,[y])]) == true THEN" ++
        "bIF enforcer.denies(f(x,[y]), currentUser()) == true THENEND IFEND IF!", []⟩ := by
  intro ns source
  have hsep : Node.separatedAll ns [] = true := by decide +kernel
  have hsource : Node.sourceAll ns = source := by decide +kernel
  refine ⟨hsep, hsource, ?_⟩
  rw [← hsource, compile_sourceAll Preset.neutral.dialect ns hsep]
  decide +kernel

end TemplateGuards
