import TemplateGuards.Proofs.Deeds
import TemplateGuards.Proofs.Emission
import TemplateGuards.Proofs.GivenPaths

/-!
Compiling into an output directory that is not there yet.  The first file that is delivered makes
it, and then it holds nothing but delivered files and the directories above them.  So no later file
is refused, unless it lies below another or has another below it.

* `Beneath`, `Apart`: places below one another, and places none of which is below another;
* `Disk.ClimbsOut`: a path that goes up again from a directory that is missing;
* `Disk.HoldsOnly`: a directory with nothing but delivered files;
* `holdsOnly_of_fresh`, `HoldsOnly.delivered`: the first delivery, and one more;
* `HoldsOnly.deliver_eq_none`: a delivery that is not refused;
* `sameFiles_of_emitAll`: all reports;
* `run_compile_fresh`: a run that fails has created no file.
-/

namespace TemplateGuards

open TemplateGuards.Path Disk

variable {d d' : Disk} {outDir output : Text} {names : List Text}

/-! ### Places below one another -/

/-- Does the second place lie below the first? -/
def Beneath (above place : List Text) : Prop := ∃ more, more ≠ [] ∧ place = above ++ more

/-- Does none of the places lie below another? -/
def Apart (places : List Text → Prop) : Prop := ∀ a b, places a → places b → ¬ Beneath a b

lemma beneath_of_dropLast {front place : List Text} (hne : place ≠ [])
    (h : front <+: place.dropLast) : Beneath front place := by
  obtain ⟨more, hmore⟩ := h
  refine ⟨more ++ [place.getLast hne], by simp, ?_⟩
  rw [← List.append_assoc, hmore, List.dropLast_concat_getLast hne]

namespace Disk

/-! ### A directory that is missing -/

/-- Does the path go up again from a directory that is missing? -/
def ClimbsOut (d : Disk) (path : Text) : Prop :=
  ∃ before after, segments path = before ++ after ∧
    d.follow (d.startOf path) before = .error .notFound ∧ ['.', '.'] ∈ after

/-- The way to something that is missing: it leads to a directory, and from there names lead on,
the first of which is missing. -/
structure Missing (d : Disk) (path : Text) (middle : List Text) (before rest : List Text) :
    Prop where
  steps : steps path = before ++ rest
  follow : d.follow (d.startOf path) before = .ok middle
  directory : d.entryAt? middle = some .directory
  isName : ∀ n ∈ rest, IsName n
  nothing : d.entryAt? (middle ++ rest) = none

lemma Missing.spot {path : Text} {middle before rest : List Text}
    (h : Missing d path middle before rest) : d.spot path = middle ++ rest := by
  rw [Disk.spot, h.steps, walk_append, ← walk_of_follow h.follow, walk_of_isName h.isName]

/-- **A path that names nothing** and can be prepared leads to something that is missing. -/
lemma exists_missing {path : Text} (hne : path ≠ []) (hfresh : d.holds path = false)
    (hstays : ¬ d.ClimbsOut path) (hgrows : GrowsTo d d')
    (hstart : d.entryAt? (d.startOf path) = some .directory)
    (hfollow : d'.follow (d.startOf path) (steps path) = .ok (d.spot path))
    (hspot : d'.entryAt? (d.spot path) = some .directory) :
    ∃ middle before rest, Missing d path middle before rest := by
  -- the whole path can be followed once it is there
  have hlater : d'.follow (d.startOf path) (segments path) = .ok (d.spot path) :=
    follow_steps_iff.mpr ⟨hfollow, fun _ _ _ => hspot⟩
  cases hnow : d.follow (d.startOf path) (segments path) with
  | ok place =>
      have hthere := entryAt?_of_follow (segments_ne_nil path) hnow
      have hholds : d.holds path = true := by
        rw [holds, tree?, locate_eq_ok_iff.mpr ⟨hne, hnow⟩]
        by_contra hno
        exact hthere (isNone_get?_iff.mp (by simpa using hno))
      simp [hholds] at hfresh
  | error fault =>
      obtain ⟨before, s, after, middle, hsegments, hbefore, ⟨rfl, -⟩ | ⟨rfl, hmiss⟩⟩ :=
        exists_of_follow_eq_error hnow
      · exact absurd hnow (hgrows.follow_ne_notADirectory hstart hlater)
      · refine ⟨middle, before.filter (fun s => !isIdle s), s :: after.filter (fun s => !isIdle s),
          ?_, (follow_steps_iff.mp hbefore).1, hmiss.directory, ?_, ?_⟩
        · rw [steps, hsegments]
          simp [hmiss.not_idle]
        · -- a step up after the missing name would climb out
          have hmissing : d.follow (d.startOf path) (before ++ [s]) = .error .notFound := by
            simp [follow_append, hbefore, follow_singleton, hmiss.directory, hmiss.not_idle,
              hmiss.ne_up, hmiss.missing]
          have hup : ['.', '.'] ∉ after := fun hmem =>
            hstays ⟨before ++ [s], after, by simp [hsegments], hmissing, hmem⟩
          intro n hn
          have hmem : n ∈ segments path := by
            rw [hsegments]
            rcases List.mem_cons.mp hn with rfl | hn
            · simp
            · simp [(List.mem_filter.mp hn).1]
          rcases List.mem_cons.mp hn with rfl | hn
          · exact ⟨hmiss.not_idle, hmiss.ne_up, separator_not_mem hmem⟩
          · obtain ⟨hafter, hidle⟩ := List.mem_filter.mp hn
            exact ⟨by simpa using hidle, fun heq => hup (heq ▸ hafter), separator_not_mem hmem⟩
        · by_contra hthere
          cases hrest : after.filter (fun s => !isIdle s) with
          | nil => exact hthere (by rw [hrest, hmiss.missing])
          | cons n ns =>
              have hdir : d.entryAt? (middle ++ [s]) = some .directory := by
                refine entryAt?_of_append (List.cons_ne_nil n ns) ?_
                rw [hrest] at hthere
                simpa using hthere
              simp [hmiss.missing] at hdir

/-! ### A directory with delivered files -/

/-- The directory is there, and below it stand files at some of these places, and directories
above them, and nothing else. -/
structure HoldsOnly (d : Disk) (outDir : Text) (places : List Text → Prop) : Prop where
  follow : d.follow (d.startOf outDir) (steps outDir) = .ok (d.spot outDir)
  there : d.entryAt? (d.spot outDir) = some .directory
  file : ∀ below c, d.entryAt? (d.spot outDir ++ below) = some (.file c) → places below
  directory : ∀ below, d.entryAt? (d.spot outDir ++ below) = some .directory →
    below = [] ∨ ∃ names, places names ∧ below <+: names.dropLast

variable {places : List Text → Prop}

/-- A delivery adds one of the files and directories above it, where nothing is made on the way to
the directory but the directory itself. -/
lemma holdsOnly_of_delivered (hnames : IsPlace names) (hplaces : places names)
    (hfile : ∀ below c, d.entryAt? (d.spot outDir ++ below) = some (.file c) → places below)
    (hdirectory : ∀ below, d.entryAt? (d.spot outDir ++ below) = some .directory →
      below = [] ∨ ∃ names, places names ∧ below <+: names.dropLast)
    (hway : ∀ below, d.entryAt? (d.spot outDir ++ below) = none →
      OnWay (d.startOf outDir) (steps outDir) (d.spot outDir ++ below) → below = [])
    (h : Delivered d outDir names output d') : HoldsOnly d' outDir places := by
  refine ⟨?_, ?_, ?_, ?_⟩
  · rw [h.growsTo.spot, h.growsTo.startOf]
    exact h.follow
  · rw [h.growsTo.spot]
    exact h.outDir
  · rw [h.growsTo.spot]
    intro below c hc
    by_cases heq : below = names
    · exact heq ▸ hplaces
    · rw [h.frame _ c fun hplace => heq (List.append_cancel_left hplace)] at hc
      exact hfile below c hc
  · rw [h.growsTo.spot]
    intro below hdir
    rcases h.directory _ hdir with hold | ⟨hnone, hon⟩
    · exact hdirectory below hold
    · have habove : ∀ n ∈ names.dropLast, IsName n := fun n hn =>
        hnames.isName n ((List.dropLast_sublist names).subset hn)
      rcases hon.append_cases habove with hon | ⟨front, hfront, heq⟩
      · exact .inl (hway below hnone hon)
      · exact .inr ⟨names, hplaces, List.append_cancel_left heq ▸ hfront⟩

/-- **The first delivery** makes the directory. -/
lemma holdsOnly_of_fresh (hne : outDir ≠ []) (hfresh : d.holds outDir = false)
    (hstays : ¬ d.ClimbsOut outDir) (hnames : IsPlace names) (hplaces : places names)
    (h : Delivered d outDir names output d') : HoldsOnly d' outDir places := by
  obtain ⟨middle, before, rest, hmiss⟩ :=
    exists_missing hne hfresh hstays h.growsTo h.start h.follow h.outDir
  have hspot : d.spot outDir = middle ++ rest := hmiss.spot
  have hnothing : ∀ below, d.entryAt? (d.spot outDir ++ below) = none := by
    intro below
    by_contra hthere
    cases below with
    | nil => exact hthere (by rw [List.append_nil, hspot, hmiss.nothing])
    | cons n ns =>
        have hdir := entryAt?_of_append (List.cons_ne_nil n ns) hthere
        simp [hspot, hmiss.nothing] at hdir
  refine holdsOnly_of_delivered hnames hplaces (by simp [hnothing]) (by simp [hnothing]) ?_ h
  intro below hnone hon
  rw [hmiss.steps] at hon
  rcases hon.append_cases hmiss.isName with hon | ⟨front, hfront, heq⟩
  · -- the way up to the missing name is there already
    rw [entryAt?_of_onWay hmiss.follow hmiss.directory hon] at hnone
    simp at hnone
  · rw [← walk_of_follow hmiss.follow, hspot, List.append_assoc] at heq
    have hlen := congrArg List.length (List.append_cancel_left heq)
    have := hfront.length_le
    refine List.length_eq_zero_iff.mp ?_
    simp at hlen
    omega

/-- **One delivery more** keeps the directory one with delivered files. -/
lemma HoldsOnly.delivered (h : HoldsOnly d outDir places) (hnames : IsPlace names)
    (hplaces : places names) (hd : Delivered d outDir names output d') :
    HoldsOnly d' outDir places := by
  refine holdsOnly_of_delivered hnames hplaces h.file h.directory ?_ hd
  intro below hnone hon
  rw [entryAt?_of_onWay h.follow h.there hon] at hnone
  simp at hnone

/-- **No delivery is refused** at a place that is neither below nor above another. -/
lemma HoldsOnly.deliver_eq_none (h : HoldsOnly d outDir places) (hapart : Apart places)
    (hnames : IsPlace names) (hplaces : places names) :
    (deliver d (destination outDir names) output).2 = none := by
  refine deliver_names hnames h.follow h.there ?_ ?_
  · intro front c hfront hfile
    exact hapart front names (h.file front c hfile) hplaces
      (beneath_of_dropLast hnames.ne_nil hfront)
  · intro hdir
    rcases h.directory names hdir with rfl | ⟨other, hother, hbelow⟩
    · exact hnames.ne_nil rfl
    · have hne : other ≠ [] := by
        rintro rfl
        exact hnames.ne_nil (List.prefix_nil.mp hbelow)
      exact hapart names other hplaces hother (beneath_of_dropLast hne hbelow)

end Disk

/-! ### All reports -/

variable {so so' : Delivery} {reports : List Report} {places : List Text → Prop}

/-- The place of a report whose output is written. -/
def WrittenAt (reports : List Report) (names : List Text) : Prop :=
  ∃ r ∈ reports, ∃ output, r.Writes output ∧ r.HasPlace names

lemma WrittenAt.cons {r : Report} {names : List Text} (h : WrittenAt reports names) :
    WrittenAt (r :: reports) names := by
  obtain ⟨e, he, hwritten⟩ := h
  exact ⟨e, List.mem_cons_of_mem r he, hwritten⟩

/-- No report is refused in a directory with nothing but delivered files. -/
lemma emitAll_eq_none (h : HoldsOnly so.disk outDir places) (hapart : Apart places)
    (hnames : ∀ r ∈ reports, ∃ names, r.HasPlace names)
    (hplaces : ∀ names, WrittenAt reports names → places names) :
    (emitAll (some outDir) false so reports).2 = none := by
  induction reports generalizing so with
  | nil => rfl
  | cons r rest ih =>
      have hnames' : ∀ e ∈ rest, ∃ names, e.HasPlace names := fun e he => hnames e (by simp [he])
      have hplaces' : ∀ names, WrittenAt rest names → places names := fun n hn => hplaces n hn.cons
      by_cases hwrites : ∃ output, r.Writes output
      · obtain ⟨output, hw⟩ := hwrites
        obtain ⟨names, hr⟩ := hnames r (by simp)
        have hplace : places names := hplaces names ⟨r, by simp, output, hw, hr⟩
        have hnone := @HoldsOnly.deliver_eq_none _ _ output _ _ h hapart hr.isPlace hplace
        rw [emitAll_cons_of_writes hw, hr.destination_eq]
        rcases hd : deliver so.disk (Disk.destination outDir names) output with ⟨disk, failure?⟩
        rw [hd] at hnone
        obtain rfl : failure? = none := hnone
        exact ih (h.delivered hr.isPlace hplace (delivered_of_deliver hr.isPlace hd)) hnames'
          hplaces'
      · rw [not_exists] at hwrites
        rw [emitAll_cons_of_not_writes hwrites]
        exact ih h hnames' hplaces'

/-- **All or nothing**: where a report is refused in a fresh directory, no file has been written. -/
lemma sameFiles_of_emitAll {failure : Failure} (hne : outDir ≠ [])
    (hfresh : so.disk.holds outDir = false) (hstays : ¬ so.disk.ClimbsOut outDir)
    (hapart : Apart (WrittenAt reports)) (hnames : ∀ r ∈ reports, ∃ names, r.HasPlace names)
    (h : emitAll (some outDir) false so reports = (so', some failure)) :
    SameFiles so.disk so'.disk := by
  induction reports generalizing so with
  | nil => simp [emitAll] at h
  | cons r rest ih =>
      have hnames' : ∀ e ∈ rest, ∃ names, e.HasPlace names := fun e he => hnames e (by simp [he])
      by_cases hwrites : ∃ output, r.Writes output
      · obtain ⟨output, hw⟩ := hwrites
        obtain ⟨names, hr⟩ := hnames r (by simp)
        rw [emitAll_cons_of_writes hw, hr.destination_eq] at h
        rcases hd : deliver so.disk (Disk.destination outDir names) output with ⟨disk, failure?⟩
        rw [hd] at h
        cases failure? with
        | some failure' =>
            obtain rfl : { so with disk } = so' := (Prod.mk.inj h).1
            exact (adds_of_deliver hr.isPlace hd).sameFiles
        | none =>
            -- the first delivery has made the directory, and nothing is refused any more
            have hplace : WrittenAt (r :: rest) names := ⟨r, by simp, output, hw, hr⟩
            have hholds := holdsOnly_of_fresh hne hfresh hstays hr.isPlace hplace
              (delivered_of_deliver hr.isPlace hd)
            have hnone := @emitAll_eq_none outDir { so with disk } rest _ hholds hapart hnames'
              fun _ hn => hn.cons
            simp [h] at hnone
      · rw [not_exists] at hwrites
        rw [emitAll_cons_of_not_writes hwrites] at h
        exact @ih { so with output := so.output ++ printed [r] } hfresh hstays
          (fun a b ha hb => hapart a b ha.cons hb.cons) hnames' h

/-! ### Runs -/

/-- Would one of the reports be written below another? -/
def Overlap (reports : List Report) : Prop :=
  ∃ a ∈ reports, ∃ b ∈ reports, ∃ more, a.output?.isSome ∧ b.output?.isSome ∧
    a.relativePath ≠ inputName ∧ b.relativePath ≠ inputName ∧
    b.relativePath = a.relativePath ++ separator :: more

/-- Reports none of which would be written below another have places apart. -/
lemma apart_of_not_overlap (h : ¬ Overlap reports) : Apart (WrittenAt reports) := by
  rintro above _ ⟨a, ha, outA, hwa, hpa⟩ ⟨b, hb, outB, hwb, hpb⟩ ⟨more, hmore, rfl⟩
  refine h ⟨a, ha, b, hb, ofNames more, by simp [hwa.output], by simp [hwb.output], hwa.not_input,
    hwb.not_input, ?_⟩
  rw [hpa.relativePath, hpb.relativePath, ofNames_append hpa.isPlace.ne_nil hmore]

/-- A dry run is not refused and changes nothing. -/
lemma emitAll_dryRun (outDir? : Option Text) (so : Delivery) (reports : List Report) :
    ∃ output, emitAll outDir? true so reports = (⟨output, so.disk⟩, none) :=
  ⟨_, emitAll_true outDir? so reports⟩

/-- **Compiling into a fresh directory is all or nothing.**  Where the output directory is not there
yet and the run is ended by a failure, no file has been created or changed, unless one of the
reports would be written below another, or the path of the directory goes up again from one that is
missing.  The tree of files has no links, so that its names alone decide where a path leads. -/
theorem run_compile_fresh {w : World} {words : List Text} {line : CommandLine} {outDir : Text}
    {race : Race CompileFault} {dryRun : Bool} {failure : Failure}
    (hread : CommandLine.read words = .ok line)
    (hcommand : line.command = .compile (some outDir) dryRun) (hroot : w.disk.root.Named)
    (hfresh : w.disk.holds outDir = false)
    (hfailed : (run w words race).ending = .failed failure) :
    SameFiles w.disk (run w words race).disk ∨ w.disk.ClimbsOut outDir ∨
      ∃ reports, MakesReports w line reports ∧ Overlap reports := by
  by_cases hclimbs : w.disk.ClimbsOut outDir
  · exact .inr (.inl hclimbs)
  by_cases hoverlap : ∃ reports, MakesReports w line reports ∧ Overlap reports
  · exact .inr (.inr hoverlap)
  refine .inl ?_
  obtain ⟨_, hrun⟩ | ⟨-, -, _, hrun⟩ | ⟨reports, hmakes, hrun⟩ := run_compile_cases hread hcommand
  · exact hrun ▸ .refl w.disk
  · exact hrun ▸ .refl w.disk
  obtain ⟨c, hc⟩ | ⟨-, so, ⟨_, hemit, hc⟩ | ⟨-, _, _, hc⟩⟩ :=
    compileAll_cases w line outDir dryRun reports
  · exact hrun ▸ hc ▸ .refl w.disk
  · rw [hrun, hc]
    cases dryRun with
    | true =>
        obtain ⟨output, hdry⟩ := emitAll_dryRun (some outDir) ⟨[], w.disk⟩ reports
        simp [hdry] at hemit
    | false =>
        exact sameFiles_of_emitAll (CommandLine.outDir_ne_nil hread hcommand) hfresh hclimbs
          (apart_of_not_overlap fun h => hoverlap ⟨reports, hmakes, h⟩) (hmakes.hasPlace hroot)
          hemit
  · rw [hrun, hc] at hfailed
    simp at hfailed

/-- Two templates below two directories, one of which would be written below the other: the first
is written and the second refused. -/
theorem run_compile_fresh_overlap :
    let w : World :=
      ⟨⟨.directory [("a", .directory [("x.blade.php", .file (.text "A"))]),
        ("b", .directory [("x.blade.php", .directory [("y.blade.php", .file (.text "B"))])])], []⟩,
        "/u", .text [], false⟩
    let words : List Text := ["compile", "--out-dir", "out", "a", "b"]
    (run w words).disk.read "out/x.blade.php" = .ok "A".toList ∧
    ∃ line failure, CommandLine.read words = .ok line ∧
      line.command = .compile (some "out".toList) false ∧ w.disk.root.Named ∧
      w.disk.holds "out" = false ∧ (run w words).ending = .failed failure ∧
      (SameFiles w.disk (run w words).disk ∨ w.disk.ClimbsOut "out" ∨
        ∃ reports, MakesReports w line reports ∧ Overlap reports) := by
  intro w words
  let line : CommandLine :=
    ⟨.compile (some "out".toList) false, ["a", "b"].map String.toList, none, .human, none, none,
      [], false, false, false⟩
  have hread : CommandLine.read words = .ok line := by decide +kernel
  have hroot : w.disk.root.Named := by
    refine .directory ?_
    simp only [List.forall_mem_cons]
    refine ⟨⟨by decide, .directory ?_⟩, ⟨by decide, .directory ?_⟩, by simp⟩
    · exact List.forall_mem_singleton.mpr ⟨by decide, .file _⟩
    · refine List.forall_mem_singleton.mpr ⟨by decide, .directory ?_⟩
      exact List.forall_mem_singleton.mpr ⟨by decide, .file _⟩
  have hfresh : w.disk.holds "out" = false := by decide +kernel
  have hfailed : (run w words).ending =
      .failed (.creating "out/x.blade.php" .alreadyExists) := by decide +kernel
  exact ⟨by decide +kernel, line, _, hread, rfl, hroot, hfresh, hfailed,
    run_compile_fresh hread rfl hroot hfresh hfailed⟩

end TemplateGuards
