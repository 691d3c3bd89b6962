import TemplateGuards.Proofs.Places
import TemplateGuards.Proofs.Segments

/-!
Following segments on a disk.  A path that can be followed leads where its segments walk, each
segment from a directory to something that is there; on a disk that has grown it leads to the same
place.

* `follow_append`, `follow_concat_eq_ok_iff`: following one segment after the others;
* `walk_of_follow`: where following leads;
* `follow_steps_iff`: idle segments only ask for a directory;
* `follow_join`: a path joined to a directory;
* `GrowsTo.follow`: what can be followed stays so;
* `exists_of_follow_eq_error`: why following stops;
* `Disk.spot`: the place that a path names when all its directories are there;
* `segments_of_locate_file`: a path that names a file ends in the file's name.
-/

namespace TemplateGuards

namespace Disk

open TemplateGuards.Path

variable {d d' : Disk} {place target : List Text} {ss : List Text}

/-! ### One segment after the others -/

lemma follow_append (d : Disk) (place ss ts : List Text) :
    d.follow place (ss ++ ts) =
      match d.follow place ss with
      | .ok middle => d.follow middle ts
      | .error fault => .error fault := by
  induction ss generalizing place with
  | nil => rfl
  | cons s ss ih =>
      rw [List.cons_append, follow, follow]
      split
      · rfl
      · split
        · exact ih place
        · split
          · exact ih place.dropLast
          · split
            · rfl
            · exact ih (place ++ [s])

lemma follow_singleton (d : Disk) (place : List Text) (s : Text) :
    d.follow place [s] =
      if d.entryAt? place = some .directory then
        if isIdle s then .ok place
        else if s = ['.', '.'] then .ok place.dropLast
        else if d.entryAt? (place ++ [s]) = none then .error .notFound
        else .ok (place ++ [s])
      else .error .notADirectory := by
  simp only [follow, ← isDirectoryAt_iff, ← isNone_get?_iff, beq_iff_eq]
  cases d.isDirectoryAt place <;> rfl

/-- Nothing can be followed from what is no directory. -/
lemma follow_of_not_directory (h : d.entryAt? place ≠ some .directory) (hne : ss ≠ []) :
    d.follow place ss = .error .notADirectory := by
  obtain ⟨s, rest, rfl⟩ := List.exists_cons_of_ne_nil hne
  rw [← List.singleton_append, follow_append, follow_singleton, if_neg h]

/-- One segment is followed from a directory, and a name to what is there. -/
lemma follow_singleton_eq_ok_iff {s : Text} :
    d.follow place [s] = .ok target ↔
      d.entryAt? place = some .directory ∧ target = walkStep place s ∧
        (isIdle s = false → s ≠ ['.', '.'] → d.entryAt? target ≠ none) := by
  rw [follow_singleton]
  by_cases hdir : d.entryAt? place = some .directory
  · rw [if_pos hdir, walkStep]
    split_ifs with hidle hup hnone
    · simp [hdir, hidle, eq_comm]
    · simp [hdir, hup, @eq_comm _ _ target]
    · refine ⟨fun h => by simp at h, ?_⟩
      rintro ⟨-, rfl, hthere⟩
      exact absurd hnone (hthere (by simpa using hidle) hup)
    · rw [Except.ok.injEq]
      constructor
      · rintro rfl
        exact ⟨hdir, rfl, fun _ _ => hnone⟩
      · exact fun h => h.2.1.symm
  · simp [hdir]

lemma follow_concat_eq_ok_iff {s : Text} :
    d.follow place (ss ++ [s]) = .ok target ↔
      ∃ middle, d.follow place ss = .ok middle ∧ d.entryAt? middle = some .directory ∧
        target = walkStep middle s ∧
        (isIdle s = false → s ≠ ['.', '.'] → d.entryAt? target ≠ none) := by
  rw [follow_append]
  cases h : d.follow place ss with
  | error fault => simp
  | ok middle => simp [follow_singleton_eq_ok_iff]

/-- **Following leads where the segments walk.** -/
lemma walk_of_follow (h : d.follow place ss = .ok target) : target = walk place ss := by
  induction ss using List.reverseRecOn generalizing target with
  | nil => simpa [follow, eq_comm] using h
  | append_singleton ss s ih =>
      obtain ⟨middle, hm, -, rfl, -⟩ := follow_concat_eq_ok_iff.mp h
      rw [walk_concat, ← ih hm]

/-- Idle segments stay where they are, but the last one asks for a directory. -/
lemma follow_steps_iff :
    d.follow place ss = .ok target ↔
      d.follow place (ss.filter fun s => !isIdle s) = .ok target ∧
        (∀ s ∈ ss.getLast?, isIdle s = true → d.entryAt? target = some .directory) := by
  induction ss using List.reverseRecOn generalizing target with
  | nil => simp
  | append_singleton ss s ih =>
      rw [follow_concat_eq_ok_iff, List.filter_append, List.getLast?_concat]
      by_cases hs : isIdle s = true
      · have hfilter : [s].filter (fun s => !isIdle s) = [] := by simp [hs]
        rw [hfilter, List.append_nil]
        constructor
        · rintro ⟨middle, hm, hdir, rfl, -⟩
          rw [walkStep, if_pos hs]
          exact ⟨(ih.mp hm).1, fun _ _ _ => hdir⟩
        · rintro ⟨hfollow, hdir⟩
          have hdir := hdir s rfl hs
          exact ⟨target, ih.mpr ⟨hfollow, fun _ _ _ => hdir⟩, hdir, by rw [walkStep, if_pos hs],
            fun h => absurd hs (by simp [h])⟩
      · have hfilter : [s].filter (fun s => !isIdle s) = [s] := by simp [hs]
        rw [hfilter, follow_concat_eq_ok_iff]
        constructor
        · rintro ⟨middle, hm, hrest⟩
          refine ⟨⟨middle, (ih.mp hm).1, hrest⟩, ?_⟩
          rintro _ ⟨rfl⟩ hidle
          exact absurd hidle hs
        · rintro ⟨⟨middle, hm, hdir, hrest⟩, -⟩
          exact ⟨middle, ih.mpr ⟨hm, fun _ _ _ => hdir⟩, hdir, hrest⟩

/-- A relative path that is joined to a directory is followed from there. -/
lemma follow_join {directory path : Text} {middle : List Text} (hrelative : isAbsolute path = false)
    (hsteps : d.follow (d.startOf directory) (steps directory) = .ok middle)
    (hdir : d.entryAt? middle = some .directory) :
    d.follow (d.startOf (join directory path)) (segments (join directory path)) =
      d.follow middle (segments path) := by
  obtain ⟨above, habove, hfilter⟩ := @segments_join directory path hrelative
  have hup : d.follow (d.startOf directory) above = .ok middle :=
    follow_steps_iff.mpr ⟨hfilter ▸ hsteps, fun _ _ _ => hdir⟩
  rw [startOf_join d hrelative, habove, follow_append, hup]

/-! ### On a disk that has grown -/

/-- **What can be followed stays so**, and leads to the same place. -/
lemma GrowsTo.follow (hd : GrowsTo d d') (h : d.follow place ss = .ok target) :
    d'.follow place ss = .ok target := by
  induction ss using List.reverseRecOn generalizing target with
  | nil => exact h
  | append_singleton ss s ih =>
      obtain ⟨middle, hm, hdir, rfl, hthere⟩ := follow_concat_eq_ok_iff.mp h
      refine follow_concat_eq_ok_iff.mpr ⟨middle, ih hm, hd.directory _ hdir, rfl, ?_⟩
      exact fun hs hup => hd.entryAt?_ne_none (hthere hs hup)

/-- Where a segment after a directory cannot be followed: at a name that is missing there. -/
structure Misses (d : Disk) (middle : List Text) (s : Text) : Prop where
  directory : d.entryAt? middle = some .directory
  not_idle : isIdle s = false
  ne_up : s ≠ ['.', '.']
  missing : d.entryAt? (middle ++ [s]) = none

/-- **Why following stops**: the segments before lead to something that is no directory, or to a
directory without the next name. -/
lemma exists_of_follow_eq_error {fault : FileFault} (h : d.follow place ss = .error fault) :
    ∃ before s after middle, ss = before ++ s :: after ∧ d.follow place before = .ok middle ∧
      (fault = .notADirectory ∧ d.entryAt? middle ≠ some .directory ∨
        fault = .notFound ∧ d.Misses middle s) := by
  induction ss using List.reverseRecOn with
  | nil => simp [follow] at h
  | append_singleton ss s ih =>
      rw [follow_append] at h
      cases hss : d.follow place ss with
      | error fault' =>
          obtain ⟨before, s', after, middle, rfl, hb, hm⟩ := ih (by rw [hss] at h ⊢; exact h)
          exact ⟨before, s', after ++ [s], middle, by simp, hb, hm⟩
      | ok middle =>
          refine ⟨ss, s, [], middle, rfl, hss, ?_⟩
          simp only [hss, follow_singleton] at h
          split_ifs at h with hdir hidle hup hnone
          · exact .inr ⟨(Except.error.inj h).symm, hdir, by simpa using hidle, hup, hnone⟩
          · exact .inl ⟨(Except.error.inj h).symm, hdir⟩

/-- Something stands where segments lead. -/
lemma entryAt?_of_follow (hne : ss ≠ []) (h : d.follow place ss = .ok target) :
    d.entryAt? target ≠ none := by
  obtain ⟨above, last, rfl⟩ : ∃ above last, ss = above ++ [last] :=
    ⟨_, _, (List.dropLast_concat_getLast hne).symm⟩
  obtain ⟨middle, -, hdir, rfl, hthere⟩ := follow_concat_eq_ok_iff.mp h
  by_cases hidle : isIdle last = true
  · rw [walkStep, if_pos hidle, hdir]
    simp
  · by_cases hup : last = ['.', '.']
    · rw [walkStep, if_neg hidle, if_pos hup, entryAt?_dropLast hdir]
      simp
    · exact hthere (by simpa using hidle) hup

/-- On a disk that has grown, following does not get further where a directory is wanting. -/
lemma GrowsTo.follow_ne_notADirectory (hd : GrowsTo d d')
    (hplace : d.entryAt? place = some .directory) (h : d'.follow place ss = .ok target) :
    d.follow place ss ≠ .error .notADirectory := by
  intro herror
  obtain ⟨before, s, after, middle, rfl, hbefore, ⟨-, hno⟩ | ⟨hfault, -⟩⟩ :=
    exists_of_follow_eq_error herror
  · have hthere : d.entryAt? middle ≠ none := by
      cases before with
      | nil =>
          obtain rfl : place = middle := by simpa [Disk.follow] using hbefore
          simp [hplace]
      | cons b bs => exact entryAt?_of_follow (List.cons_ne_nil b bs) hbefore
    have hno' : d'.entryAt? middle ≠ some .directory := hd.not_directory hthere hno
    rw [follow_append, hd.follow hbefore] at h
    simp [follow_of_not_directory hno' (List.cons_ne_nil s after)] at h
  · simp at hfault

/-- Names lead below a directory or to nothing, as long as no file stands above. -/
lemma follow_names (hplace : d.entryAt? place = some .directory) (hss : ∀ s ∈ ss, IsName s)
    (hfree : ∀ above below c, ss = above ++ below → below ≠ [] →
      d.entryAt? (place ++ above) ≠ some (.file c)) :
    d.follow place ss = .ok (place ++ ss) ∧ d.entryAt? (place ++ ss) ≠ none ∨
      d.follow place ss = .error .notFound ∧ d.entryAt? (place ++ ss) = none := by
  induction ss using List.reverseRecOn with
  | nil => simp [follow, hplace]
  | append_singleton ss s ih =>
      have hs : IsName s := hss s (by simp)
      rcases ih (fun s' h => hss s' (by simp [h])) fun above below c heq hne =>
          hfree above (below ++ [s]) c (by simp [heq]) (by simp) with
        ⟨hfollow, hthere⟩ | ⟨hfollow, hnone⟩
      · have hdir : d.entryAt? (place ++ ss) = some .directory :=
          entryAt?_eq_directory hthere fun c => hfree ss [s] c rfl (by simp)
        have hlast : d.follow place (ss ++ [s]) =
            if d.entryAt? (place ++ ss ++ [s]) = none then .error .notFound
            else .ok (place ++ ss ++ [s]) := by
          simp [follow_append, hfollow, follow_singleton, hdir, hs.not_idle, hs.ne_up]
        rw [hlast, ← List.append_assoc]
        by_cases hnone : d.entryAt? (place ++ ss ++ [s]) = none
        · exact .inr ⟨if_pos hnone, hnone⟩
        · exact .inl ⟨if_neg hnone, hnone⟩
      · refine .inr ⟨by rw [follow_append, hfollow], ?_⟩
        by_contra hthere
        rw [← List.append_assoc] at hthere
        rw [entryAt?_of_append (by simp) hthere] at hnone
        simp at hnone

/-! ### Paths -/

/-- The place that a path names when all its directories are there. -/
def spot (d : Disk) (path : Text) : List Text := walk (d.startOf path) (steps path)

lemma GrowsTo.startOf (h : GrowsTo d d') (path : Text) : d'.startOf path = d.startOf path := by
  rw [Disk.startOf, Disk.startOf, h.working]

lemma GrowsTo.spot (h : GrowsTo d d') (path : Text) : d'.spot path = d.spot path := by
  rw [Disk.spot, Disk.spot, h.startOf]

lemma locate_eq_ok_iff {path : Text} {place : List Text} :
    d.locate path = .ok place ↔
      path ≠ [] ∧ d.follow (d.startOf path) (segments path) = .ok place := by
  rw [locate]
  cases path with
  | nil => simp
  | cons c cs => simp

/-- **A path that names a file ends in the file's name**, behind segments that lead to its
directory. -/
lemma segments_of_locate_file {path : Text} {c : Content} (h : d.locate path = .ok place)
    (hfile : d.entryAt? place = some (.file c)) :
    ∃ above last middle, segments path = above ++ [last] ∧ IsName last ∧
      d.follow (d.startOf path) above = .ok middle ∧ d.entryAt? middle = some .directory ∧
      place = middle ++ [last] := by
  obtain ⟨above, last, hpath⟩ : ∃ above last, segments path = above ++ [last] :=
    ⟨_, _, (List.dropLast_concat_getLast (segments_ne_nil path)).symm⟩
  have hfollow := (locate_eq_ok_iff.mp h).2
  rw [hpath] at hfollow
  obtain ⟨middle, hm, hdir, rfl, -⟩ := follow_concat_eq_ok_iff.mp hfollow
  have hname : IsName last := by
    refine ⟨?_, ?_, separator_not_mem (by rw [hpath]; simp)⟩
    · by_contra hidle
      rw [walkStep, if_pos (by simpa using hidle), hdir] at hfile
      simp at hfile
    · rintro rfl
      have hstep : walkStep middle ['.', '.'] = middle.dropLast := rfl
      rw [hstep, entryAt?_dropLast hdir] at hfile
      simp at hfile
  exact ⟨above, last, middle, hpath, hname, hm, hdir, walkStep_of_isName hname⟩

end Disk

end TemplateGuards
