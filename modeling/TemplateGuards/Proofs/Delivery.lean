import TemplateGuards.Proofs.Writing

/-!
Delivering a text below an output directory: the directories above are made, and then the file.

* `Disk.deliver_eq`: what a delivery does;
* `Disk.write_below`: a file that is written below a directory;
* `Disk.Delivered`: a disk after a text has been delivered;
* `delivered_of_deliver`, `adds_of_deliver`: a delivery that is done, and one that is refused;
* `deliver_names`: a delivery that cannot be refused.
-/

namespace TemplateGuards

namespace Disk

open TemplateGuards.Path

variable {d d' ready : Disk} {outDir output : Text} {names : List Text}

/-- The path of names below a directory. -/
def destination (outDir : Text) (names : List Text) : Text := join outDir (ofNames names)

/-- The names of a file below a directory. -/
structure IsPlace (names : List Text) : Prop where
  ne_nil : names ≠ []
  isName : ∀ n ∈ names, IsName n

lemma IsPlace.exists_concat (h : IsPlace names) : ∃ above last, names = above ++ [last] :=
  ⟨_, _, (List.dropLast_concat_getLast h.ne_nil).symm⟩

lemma not_idle_of_mem_steps {path s : Text} (h : s ∈ steps path) : isIdle s = false := by
  simpa using (List.mem_filter.mp h).2

/-! ### Making room -/

lemma segments_destination (outDir : Text) (h : IsPlace names) :
    ∃ front, segments (destination outDir names) = front ++ names ∧
      front.filter (fun s => !isIdle s) = steps outDir := by
  have hsegments := segments_ofNames h.ne_nil fun n hn => (h.isName n hn).separator_not_mem
  obtain ⟨front, hfront, hsteps⟩ := @segments_join outDir _ (isAbsolute_ofNames h.isName)
  exact ⟨front, by rw [destination, hfront, hsegments], hsteps⟩

lemma destination_ne_nil (outDir : Text) (h : IsPlace names) : destination outDir names ≠ [] := by
  intro hnil
  obtain ⟨front, hfront, -⟩ := segments_destination outDir h
  rw [hnil, show segments [] = [[]] from rfl, eq_comm, List.append_eq_singleton_iff] at hfront
  rcases hfront with ⟨-, rfl⟩ | ⟨-, hnames⟩
  · exact (h.isName [] (by simp)).ne_nil rfl
  · exact h.ne_nil hnames

lemma startOf_destination (d : Disk) (outDir : Text) (h : IsPlace names) :
    d.startOf (destination outDir names) = d.startOf outDir :=
  startOf_join d (isAbsolute_ofNames h.isName)

lemma IsPlace.filter_not_idle {above : List Text} {last : Text} (h : IsPlace (above ++ [last])) :
    above.filter (fun s => !isIdle s) = above :=
  List.filter_eq_self.mpr fun n hn => by simp [(h.isName n (by simp [hn])).not_idle]

/-- The directories above a destination are those that its steps but the last walk through. -/
lemma makeRoom_eq (d : Disk) (outDir : Text) {above : List Text} {last : Text}
    (h : IsPlace (above ++ [last])) :
    ∃ parent, makeRoom d (destination outDir (above ++ [last])) =
      ((d.createAll (d.startOf outDir) (steps outDir ++ above).reverse).1,
        (d.createAll (d.startOf outDir) (steps outDir ++ above).reverse).2.map
          (Failure.creating parent)) := by
  obtain ⟨front, hfront, hsteps⟩ := segments_destination outDir h
  rw [← List.append_assoc] at hfront
  obtain ⟨parent, hparent, habs, hup⟩ := parent?_eq_some hfront (h.isName last (by simp)).not_idle
  have hstart : d.startOf parent = d.startOf outDir := by
    rw [startOf, habs]
    exact startOf_destination d outDir h
  rw [List.filter_append, hsteps, h.filter_not_idle] at hup
  refine ⟨parent, ?_⟩
  simp only [makeRoom, hparent, prepare, hstart, hup]

/-- **What a delivery does**: the directories above are made, and then the file is written. -/
lemma deliver_eq (d : Disk) (outDir output : Text) {above : List Text} {last : Text}
    (h : IsPlace (above ++ [last])) :
    ∃ parent, deliver d (destination outDir (above ++ [last])) output =
      match d.createAll (d.startOf outDir) (steps outDir ++ above).reverse with
      | (ready, some fault) => (ready, some (.creating parent fault))
      | (ready, none) =>
        match ready.write (destination outDir (above ++ [last])) output with
        | .ok written => (written, none)
        | .error fault =>
          (ready, some (.writing (destination outDir (above ++ [last])) fault)) := by
  obtain ⟨parent, hroom⟩ := makeRoom_eq d outDir h
  refine ⟨parent, ?_⟩
  rw [deliver, hroom]
  rcases d.createAll (d.startOf outDir) (steps outDir ++ above).reverse with ⟨ready, fault?⟩
  cases fault? <;> rfl

/-- The directories that are made above a destination, and that the way leads there. -/
lemma createAll_above {above : List Text} {last : Text} (h : IsPlace (above ++ [last]))
    {fault? : Option FileFault}
    (hall : d.createAll (d.startOf outDir) (steps outDir ++ above).reverse = (ready, fault?)) :
    AddsDirectories (OnWay (d.startOf outDir) (steps outDir ++ above)) d ready ∧
      (fault? = none → steps outDir ++ above ≠ [] →
        ∃ place, ready.follow (d.startOf outDir) (steps outDir ++ above) = .ok place ∧
          ready.entryAt? place = some .directory) := by
  have hidle : ∀ s ∈ (steps outDir ++ above).reverse, isIdle s = false := by
    intro s hs
    rcases List.mem_append.mp (List.mem_reverse.mp hs) with hs | hs
    · exact not_idle_of_mem_steps hs
    · exact (h.isName s (by simp [hs])).not_idle
  have hspec := createAll_spec hidle hall
  rw [List.reverse_reverse] at hspec
  exact ⟨hspec.1, fun hnone hne => hspec.2 hnone fun hnil => hne (List.reverse_eq_nil_iff.mp hnil)⟩

/-- The way to a destination: what is on it is on the way to the directory, or below it. -/
lemma OnWay.append_cases {start ss place : List Text} (hnames : ∀ n ∈ names, IsName n)
    (h : OnWay start (ss ++ names) place) :
    OnWay start ss place ∨ ∃ front, front <+: names ∧ place = walk start ss ++ front := by
  obtain ⟨front, ⟨back, hback⟩, rfl⟩ := h
  rcases List.append_eq_append_iff.mp hback with ⟨rest, rfl, -⟩ | ⟨below, rfl, rfl⟩
  · exact .inl ⟨front, List.prefix_append _ _, rfl⟩
  · refine .inr ⟨below, List.prefix_append _ _, ?_⟩
    rw [walk_append, walk_of_isName fun n hn => hnames n (List.mem_append_left _ hn)]

/-- What is on the way of segments that lead to a directory is a directory. -/
lemma entryAt?_of_onWay {start ss target place : List Text}
    (hfollow : d.follow start ss = .ok target) (hdir : d.entryAt? target = some .directory)
    (h : OnWay start ss place) : d.entryAt? place = some .directory := by
  obtain ⟨front, ⟨back, rfl⟩, rfl⟩ := h
  rw [follow_append] at hfollow
  cases hfront : d.follow start front with
  | error fault => simp [hfront] at hfollow
  | ok middle =>
      rw [← walk_of_follow hfront]
      cases back with
      | nil =>
          have heq : middle = target := by simpa [hfront, follow] using hfollow
          rw [heq, hdir]
      | cons s rest =>
          by_contra hno
          simp [hfront, follow_of_not_directory hno (List.cons_ne_nil s rest)] at hfollow

/-! ### One delivery -/

/-- **A file that is written below a directory**: the way to the directory above it, the new file,
and that its path leads there. -/
lemma write_below {above : List Text} {last : Text} (h : IsPlace (above ++ [last]))
    (hwrite : d.write (destination outDir (above ++ [last])) output = .ok d') :
    d.follow (d.startOf outDir) (steps outDir ++ above) = .ok (d.spot outDir ++ above) ∧
      d.entryAt? (d.spot outDir ++ above) = some .directory ∧
      Adds d (d.spot outDir ++ (above ++ [last])) (.file (.text output)) d' ∧
      d'.locate (destination outDir (above ++ [last])) =
        .ok (d.spot outDir ++ (above ++ [last])) := by
  have hlast : IsName last := h.isName last (by simp)
  obtain ⟨front, hfront, hsteps⟩ := segments_destination outDir h
  rw [← List.append_assoc] at hfront
  obtain ⟨place, hfollow, hdir, hfile⟩ := write_eq_ok hfront hlast hwrite
  rw [startOf_destination d outDir h] at hfollow
  -- the same way without the idle segments
  have hway := (follow_steps_iff.mp hfollow).1
  rw [List.filter_append, hsteps, h.filter_not_idle] at hway
  have hplace : place = d.spot outDir ++ above := by
    rw [walk_of_follow hway, walk_append, spot, walk_of_isName]
    exact fun n hn => h.isName n (by simp [hn])
  subst hplace
  have hthere : d'.entryAt? (d.spot outDir ++ above ++ [last]) ≠ none := by
    rw [hfile.entryAt?, if_pos rfl]
    simp
  refine ⟨hway, hdir, by rwa [List.append_assoc] at hfile, ?_⟩
  refine locate_eq_ok_iff.mpr ⟨destination_ne_nil outDir h, ?_⟩
  rw [startOf_destination d' outDir h, hfile.growsTo.startOf, hfront, ← List.append_assoc]
  exact follow_concat_eq_ok_iff.mpr ⟨_, hfile.growsTo.follow hfollow,
    hfile.growsTo.directory _ hdir, (walkStep_of_isName hlast).symm, fun _ _ => hthere⟩

/-- The disk after a text has been delivered below a directory. -/
structure Delivered (d : Disk) (outDir : Text) (names : List Text) (output : Text) (d' : Disk) :
    Prop where
  growsTo : GrowsTo d d'
  /-- The text stands in its file. -/
  file : d'.entryAt? (d.spot outDir ++ names) = some (.file (.text output))
  locate : d'.locate (destination outDir names) = .ok (d.spot outDir ++ names)
  /-- No other file is created or changed. -/
  frame : ∀ q c, q ≠ d.spot outDir ++ names →
    (d'.entryAt? q = some (.file c) ↔ d.entryAt? q = some (.file c))
  /-- Only directories on the way are made. -/
  directory : ∀ q, d'.entryAt? q = some .directory → d.entryAt? q = some .directory ∨
    d.entryAt? q = none ∧ OnWay (d.startOf outDir) (steps outDir ++ names.dropLast) q
  /-- The way starts from a directory. -/
  start : d.entryAt? (d.startOf outDir) = some .directory
  /-- The output directory is there. -/
  follow : d'.follow (d.startOf outDir) (steps outDir) = .ok (d.spot outDir)
  outDir : d'.entryAt? (d.spot outDir) = some .directory

/-- **A delivery that is done.** -/
lemma delivered_of_deliver (h : IsPlace names)
    (hdeliver : deliver d (destination outDir names) output = (d', none)) :
    Delivered d outDir names output d' := by
  obtain ⟨above, last, rfl⟩ := h.exists_concat
  obtain ⟨parent, heq⟩ := deliver_eq d outDir output h
  rcases hall : d.createAll (d.startOf outDir) (steps outDir ++ above).reverse with ⟨ready, fault?⟩
  rw [heq, hall] at hdeliver
  cases fault? with
  | some fault => simp at hdeliver
  | none =>
      have hadds := (createAll_above h hall).1
      cases hwrite : ready.write (destination outDir (above ++ [last])) output with
      | error fault => simp [hwrite] at hdeliver
      | ok written =>
          obtain rfl : written = d' := by simpa [hwrite] using hdeliver
          obtain ⟨hway, hdir, hfile, hlocate⟩ := write_below h hwrite
          rw [hadds.growsTo.spot] at hway hdir hfile hlocate
          rw [hadds.growsTo.startOf] at hway
          have hspot : ready.entryAt? (d.spot outDir) = some .directory :=
            entryAt?_of_onWay hway hdir ⟨_, List.prefix_append _ _, rfl⟩
          refine ⟨hadds.growsTo.trans hfile.growsTo, ?_, hlocate, ?_, ?_, ?_, ?_,
            hfile.growsTo.directory _ hspot⟩
          · rw [hfile.entryAt?, if_pos rfl]
          · intro q c hq
            rw [hfile.entryAt?, if_neg hq]
            exact hadds.sameFiles q c
          · intro q hq
            rw [hfile.entryAt?] at hq
            split at hq
            · simp at hq
            · rcases hadds.entryAt? q with heq | ⟨hnew, hnone, -⟩
              · exact .inl (heq ▸ hq)
              · exact .inr ⟨hnone, by rwa [List.dropLast_concat]⟩
          · by_cases hne : steps outDir ++ above = []
            · obtain ⟨hnone, rfl⟩ := List.append_eq_nil_iff.mp hne
              obtain rfl : d = ready := by simpa [hnone, createAll] using hall
              simpa [spot, hnone] using hspot
            · exact start_of_createAll (fun hnil => hne (List.reverse_eq_nil_iff.mp hnil)) hall
          · rw [follow_append] at hway
            cases hout : ready.follow (d.startOf outDir) (steps outDir) with
            | error fault => simp [hout] at hway
            | ok target =>
                rw [hfile.growsTo.follow hout, walk_of_follow hout]
                rfl

/-- **A delivery that is refused**: no more than directories are made. -/
lemma adds_of_deliver (h : IsPlace names) {failure : Failure}
    (hdeliver : deliver d (destination outDir names) output = (d', some failure)) :
    AddsDirectories (OnWay (d.startOf outDir) (steps outDir ++ names.dropLast)) d d' := by
  obtain ⟨above, last, rfl⟩ := h.exists_concat
  obtain ⟨parent, heq⟩ := deliver_eq d outDir output h
  rcases hall : d.createAll (d.startOf outDir) (steps outDir ++ above).reverse with ⟨ready, fault?⟩
  have hadds := (createAll_above h hall).1
  rw [heq, hall] at hdeliver
  rw [List.dropLast_concat]
  cases fault? with
  | some fault =>
      obtain ⟨rfl, -⟩ : ready = d' ∧ Failure.creating parent fault = failure := by
        simpa using hdeliver
      exact hadds
  | none =>
      cases hwrite : ready.write (destination outDir (above ++ [last])) output with
      | ok written => simp [hwrite] at hdeliver
      | error fault =>
          have hready : ready = d' := by
            simp only [hwrite, Prod.mk.injEq] at hdeliver
            exact hdeliver.1
          exact hready ▸ hadds

/-- **A delivery that cannot be refused**: the output directory is there, no file stands above the
destination, and no directory stands in its place. -/
lemma deliver_names (h : IsPlace names)
    (hfollow : d.follow (d.startOf outDir) (steps outDir) = .ok (d.spot outDir))
    (hdir : d.entryAt? (d.spot outDir) = some .directory)
    (hfree : ∀ front c, front <+: names.dropLast →
      d.entryAt? (d.spot outDir ++ front) ≠ some (.file c))
    (hroom : d.entryAt? (d.spot outDir ++ names) ≠ some .directory) :
    (deliver d (destination outDir names) output).2 = none := by
  obtain ⟨above, last, rfl⟩ := h.exists_concat
  rw [List.dropLast_concat] at hfree
  have habove : ∀ n ∈ above, IsName n := fun n hn => h.isName n (by simp [hn])
  obtain ⟨parent, hdeliver⟩ := deliver_eq d outDir output h
  rcases hall : d.createAll (d.startOf outDir) (steps outDir ++ above).reverse with ⟨ready, fault?⟩
  have hnone := createAll_names (fun s hs => not_idle_of_mem_steps hs) hfollow hdir habove hfree
  rw [hall] at hnone
  obtain rfl : fault? = none := hnone
  obtain ⟨hadds, hleads⟩ := createAll_above h hall
  -- the way to the directory above the destination
  have hway : ready.follow (d.startOf outDir) (steps outDir ++ above) =
        .ok (d.spot outDir ++ above) ∧
      ready.entryAt? (d.spot outDir ++ above) = some .directory := by
    by_cases hne : steps outDir ++ above = []
    · obtain ⟨hsteps, rfl⟩ := List.append_eq_nil_iff.mp hne
      rw [hsteps] at hfollow
      rw [List.append_nil, List.append_nil, hsteps]
      exact ⟨hfollow, hadds.growsTo.directory _ hdir⟩
    · obtain ⟨target, htarget, htdir⟩ := hleads rfl hne
      have heq : target = d.spot outDir ++ above := by
        rw [walk_of_follow htarget, walk_append, walk_of_isName habove]
        rfl
      exact ⟨heq ▸ htarget, heq ▸ htdir⟩
  obtain ⟨front, hfront, hsteps⟩ := segments_destination outDir h
  rw [← List.append_assoc] at hfront
  have hthere :
      ready.follow (ready.startOf (destination outDir (above ++ [last]))) (front ++ above) =
        .ok (d.spot outDir ++ above) := by
    rw [startOf_destination ready outDir h, hadds.growsTo.startOf]
    refine follow_steps_iff.mpr ⟨?_, fun _ _ _ => hway.2⟩
    rw [List.filter_append, hsteps, h.filter_not_idle]
    exact hway.1
  have hlast : ready.entryAt? (d.spot outDir ++ above ++ [last]) ≠ some .directory := by
    rw [List.append_assoc]
    intro hold
    rcases hadds.entryAt? (d.spot outDir ++ (above ++ [last])) with heq | ⟨hnew, hnone, -⟩
    · exact hroom (heq ▸ hold)
    · -- the directories that were made lie above the destination
      rcases hnew.append_cases habove with hon | ⟨below, hb, heq⟩
      · rw [entryAt?_of_onWay hfollow hdir hon] at hnone
        simp at hnone
      · have hlen := congrArg List.length (List.append_cancel_left heq)
        have := hb.length_le
        simp at hlen
        omega
  rw [hdeliver, hall]
  simp only
  rw [write_eq ready output hfront (h.isName last (by simp)), hthere]
  simp only [if_pos hway.2, if_neg hlast]

end Disk

end TemplateGuards
