import TemplateGuards.Proofs.Following
import TemplateGuards.Run

/-!
Adding directories and files to a disk.  A path is prepared by adding directories where its steps
walk, and a file is written by adding it there; nothing else changes.

* `Disk.Adds`: a disk with one entry more;
* `Disk.AddsDirectories`: a disk with some directories more;
* `createAll_spec`: what `createAll` adds, and that it leads there;
* `createAll_names`: no directory is refused where no file stands;
* `write_eq`, `write_eq_ok`: what `write` does.
-/

namespace TemplateGuards

namespace Disk

open TemplateGuards.Path

variable {d d' d₁ d₂ d₃ : Disk}

/-! ### More entries -/

/-- The disk with an entry more, which takes no directory's place and, if it is a directory, no
file's. -/
structure Adds (d : Disk) (place : List Text) (e : Entry) (d' : Disk) : Prop where
  free : d.entryAt? place ≠ some .directory ∧ (e = .directory → d.entryAt? place = none)
  working : d'.working = d.working
  entryAt? : ∀ q, d'.entryAt? q = if q = place then some e else d.entryAt? q

/-- The disk with new directories, at places that satisfy `new`. -/
structure AddsDirectories (new : List Text → Prop) (d d' : Disk) : Prop where
  working : d'.working = d.working
  entryAt? : ∀ q, d'.entryAt? q = d.entryAt? q ∨
    new q ∧ d.entryAt? q = none ∧ d'.entryAt? q = some .directory

lemma Adds.growsTo {place : List Text} {e : Entry} (h : Adds d place e d') : GrowsTo d d' where
  working := h.working
  directory q hq := by
    have hne : q ≠ place := fun heq => h.free.1 (heq ▸ hq)
    rw [h.entryAt?, if_neg hne, hq]
  file q c hq := by
    rw [h.entryAt?]
    by_cases heq : q = place
    · subst heq
      cases e with
      | directory => exact absurd (h.free.2 rfl) (by simp [hq])
      | file c' => exact ⟨c', by simp⟩
    · exact ⟨c, by rw [if_neg heq, hq]⟩

lemma Adds.addsDirectories {place : List Text} {new : List Text → Prop}
    (h : Adds d place .directory d') (hnew : new place) : AddsDirectories new d d' where
  working := h.working
  entryAt? q := by
    by_cases heq : q = place
    · subst heq
      exact .inr ⟨hnew, h.free.2 rfl, by rw [h.entryAt?, if_pos rfl]⟩
    · exact .inl (by rw [h.entryAt?, if_neg heq])

namespace AddsDirectories

variable {new new' : List Text → Prop}

lemma refl (new : List Text → Prop) (d : Disk) : AddsDirectories new d d := ⟨rfl, fun _ => .inl rfl⟩

lemma mono (h : AddsDirectories new d d') (hnew : ∀ q, new q → new' q) :
    AddsDirectories new' d d' :=
  ⟨h.working, fun q => (h.entryAt? q).imp_right fun hq => ⟨hnew q hq.1, hq.2⟩⟩

lemma trans (h₁ : AddsDirectories new d₁ d₂) (h₂ : AddsDirectories new d₂ d₃) :
    AddsDirectories new d₁ d₃ where
  working := h₂.working.trans h₁.working
  entryAt? q := by
    rcases h₁.entryAt? q with h | ⟨hq, hnone, hdir⟩
    · rw [← h]
      exact h₂.entryAt? q
    · refine .inr ⟨hq, hnone, ?_⟩
      rcases h₂.entryAt? q with h | ⟨-, hnone', -⟩
      · rw [h, hdir]
      · simp [hdir] at hnone'

lemma growsTo (h : AddsDirectories new d d') : GrowsTo d d' where
  working := h.working
  directory q hq := by
    rcases h.entryAt? q with heq | ⟨-, -, hdir⟩
    · rw [heq, hq]
    · exact hdir
  file q c hq := by
    rcases h.entryAt? q with heq | ⟨-, hnone, -⟩
    · exact ⟨c, by rw [heq, hq]⟩
    · simp [hq] at hnone

lemma sameFiles (h : AddsDirectories new d d') : SameFiles d d' := by
  intro q c
  rcases h.entryAt? q with heq | ⟨-, hnone, hdir⟩
  · rw [heq]
  · simp [hnone, hdir]

end AddsDirectories

/-! ### Directories -/

lemma adds_put {place : List Text} {name : Text} {new : Tree}
    (hplace : d.entryAt? place = some .directory)
    (hfree : d.entryAt? (place ++ [name]) ≠ some .directory ∧
      (new.entry = .directory → d.entryAt? (place ++ [name]) = none))
    (hnew : ∀ below, below ≠ [] → new.get? below = none) :
    Adds d (place ++ [name]) new.entry { d with root := d.root.put (place ++ [name]) new } :=
  ⟨hfree, rfl, Tree.entryAt?_put hplace hfree.1 hnew⟩

variable {start place : List Text} {last : Text} {above backwards : List Text}

lemma createDirectory_eq (d : Disk) (start : List Text) (last : Text) (above : List Text) :
    d.createDirectory start last above =
      match d.follow start above.reverse with
      | .error fault => .error fault
      | .ok place =>
        if d.entryAt? place = some .directory then
          if last = ['.', '.'] ∨ d.entryAt? (place ++ [last]) ≠ none then .error .alreadyExists
          else .ok { d with root := d.root.put (place ++ [last]) (.directory []) }
        else .error .notADirectory := by
  rw [createDirectory]
  cases d.follow start above.reverse with
  | error fault => rfl
  | ok place =>
      simp only [← isDirectoryAt_iff, ← isNone_get?_iff, ne_eq, bind, Except.bind]
      cases d.isDirectoryAt place with
      | false => rfl
      | true =>
          cases d.root.get? (place ++ [last]) <;> by_cases hup : last = ['.', '.'] <;>
            simp [hup, pure, Except.pure, throw, throwThe, MonadExceptOf.throw]

/-- One directory is added where the path above it leads to a directory that has room for it. -/
lemma createDirectory_eq_ok (h : d.createDirectory start last above = .ok d') :
    ∃ place, d.follow start above.reverse = .ok place ∧ d.entryAt? place = some .directory ∧
      last ≠ ['.', '.'] ∧ Adds d (place ++ [last]) .directory d' := by
  rw [createDirectory_eq] at h
  cases hfollow : d.follow start above.reverse with
  | error fault => simp [hfollow] at h
  | ok place =>
      simp only [hfollow] at h
      split_ifs at h with hdir hblocked
      rw [not_or, not_not] at hblocked
      rw [Except.ok.injEq] at h
      subst h
      refine ⟨place, rfl, hdir, hblocked.1, ?_⟩
      refine @adds_put d place last (.directory []) hdir
        ⟨by simp [hblocked.2], fun _ => hblocked.2⟩ ?_
      intro below hne
      obtain ⟨n, ns, rfl⟩ := List.exists_cons_of_ne_nil hne
      rfl

/-- Whether the segments, given last first, lead to a directory. -/
lemma leadsToDirectory_iff :
    d.leadsToDirectory start backwards = true ↔
      ∃ place, d.follow start backwards.reverse = .ok place ∧
        d.entryAt? place = some .directory := by
  rw [leadsToDirectory]
  cases d.follow start backwards.reverse <;> simp [isDirectoryAt_iff]

/-- What a directory at the end of segments adds, and that the segments lead to it. -/
lemma createLast_spec (hlast : isIdle last = false) {result : Disk × Option FileFault}
    (h : d.createLast start last above = result) :
    AddsDirectories (· = walk start (above.reverse ++ [last])) d result.1 ∧
      (result.2 = none → ∃ place, result.1.follow start (above.reverse ++ [last]) = .ok place ∧
        result.1.entryAt? place = some .directory) := by
  subst h
  rw [createLast]
  cases hmade : d.createDirectory start last above with
  | ok made =>
      obtain ⟨place, hfollow, hdir, hup, hadds⟩ := createDirectory_eq_ok hmade
      have hwalk : walkStep place last = place ++ [last] := by simp [walkStep, hlast, hup]
      have hlast' : made.entryAt? (place ++ [last]) = some .directory := by
        rw [hadds.entryAt?, if_pos rfl]
      refine ⟨hadds.addsDirectories ?_, fun _ => ⟨place ++ [last], ?_, hlast'⟩⟩
      · rw [walk_concat, ← walk_of_follow hfollow, hwalk]
      · refine follow_concat_eq_ok_iff.mpr ⟨place, hadds.growsTo.follow hfollow,
          hadds.growsTo.directory _ hdir, hwalk.symm, fun _ _ => by simp [hlast']⟩
  | error fault =>
      refine ⟨.refl _ d, fun hnone => ?_⟩
      have hleads : d.leadsToDirectory start (last :: above) = true := by
        by_contra hno
        simp [hno] at hnone
      simpa using leadsToDirectory_iff.mp hleads

/-- Is the place one to which the segments, or the first of them, walk? -/
def OnWay (start ss : List Text) (place : List Text) : Prop :=
  ∃ front, front <+: ss ∧ place = walk start front

lemma OnWay.mono {start ss ts place : List Text} (h : OnWay start ss place) (hss : ss <+: ts) :
    OnWay start ts place := by
  obtain ⟨front, hf, rfl⟩ := h
  exact ⟨front, hf.trans hss, rfl⟩

/-- **What `createAll` adds**: directories on the way of the segments.  Where nothing goes wrong
the segments lead to a directory. -/
lemma createAll_spec (hidle : ∀ s ∈ backwards, isIdle s = false)
    {result : Disk × Option FileFault} (h : d.createAll start backwards = result) :
    AddsDirectories (OnWay start backwards.reverse) d result.1 ∧
      (result.2 = none → backwards ≠ [] →
        ∃ place, result.1.follow start backwards.reverse = .ok place ∧
          result.1.entryAt? place = some .directory) := by
  induction backwards generalizing d result with
  | nil =>
      subst h
      exact ⟨.refl _ d, fun _ hne => absurd rfl hne⟩
  | cons last above ih =>
      rw [List.reverse_cons]
      have hone : ∀ {d result}, createLast d start last above = result →
          AddsDirectories (OnWay start (above.reverse ++ [last])) d result.1 ∧
            (result.2 = none → last :: above ≠ [] →
              ∃ place, result.1.follow start (above.reverse ++ [last]) = .ok place ∧
                result.1.entryAt? place = some .directory) := by
        intro d result h
        obtain ⟨hadds, hleads⟩ := createLast_spec (hidle last (by simp)) h
        exact ⟨hadds.mono fun q hq => ⟨_, List.prefix_rfl, hq⟩, fun hnone _ => hleads hnone⟩
      rw [createAll] at h
      split at h
      · -- the parent is missing
        rcases hrest : d.createAll start above with ⟨ready, fault?⟩
        have hadds : AddsDirectories (OnWay start (above.reverse ++ [last])) d ready :=
          (ih (fun s hs => hidle s (by simp [hs])) hrest).1.mono fun q hq => hq.mono (by simp)
        rw [hrest] at h
        cases fault? with
        | none =>
            obtain ⟨hadds', hleads⟩ := hone h
            exact ⟨hadds.trans hadds', hleads⟩
        | some fault =>
            subst h
            exact ⟨hadds, fun hnone => by simp at hnone⟩
      · exact hone h

/-- Directories can only be added where the path starts from one. -/
lemma start_of_createAll (hne : backwards ≠ []) (h : d.createAll start backwards = (d', none)) :
    d.entryAt? start = some .directory := by
  by_contra hstart
  obtain ⟨last, above, rfl⟩ := List.exists_cons_of_ne_nil hne
  have hone : d.createDirectory start last above = .error .notADirectory := by
    rw [createDirectory_eq]
    cases above with
    | nil => simp [follow, hstart]
    | cons s rest => rw [follow_of_not_directory hstart (by simp)]
  have hleads : d.leadsToDirectory start (last :: above) = false := by
    rw [leadsToDirectory, follow_of_not_directory hstart (by simp)]
  simp [createAll, hone, createLast, hleads] at h

/-! ### Where nothing stands in the way -/

/-- No directory has to be made where the segments lead to one. -/
lemma createAll_of_follow {ss : List Text} (hidle : ∀ s ∈ ss, isIdle s = false)
    (hfollow : d.follow start ss = .ok place) (hdir : d.entryAt? place = some .directory) :
    d.createAll start ss.reverse = (d, none) := by
  induction ss using List.reverseRecOn with
  | nil => rfl
  | append_singleton ss s =>
      obtain ⟨middle, hm, hmdir, rfl, hthere⟩ := follow_concat_eq_ok_iff.mp hfollow
      have hthere := hthere (hidle s (by simp))
      have hexists : s = ['.', '.'] ∨ d.entryAt? (middle ++ [s]) ≠ none := by
        by_cases hup : s = ['.', '.']
        · exact .inl hup
        · refine .inr ?_
          simpa [walkStep, hidle s (by simp), hup] using hthere hup
      have hone : d.createDirectory start s ss.reverse = .error .alreadyExists := by
        simp only [createDirectory_eq, List.reverse_reverse, hm, if_pos hmdir, if_pos hexists]
      have hleads : d.leadsToDirectory start (s :: ss.reverse) = true :=
        leadsToDirectory_iff.mpr ⟨_, by simpa using hfollow, hdir⟩
      simp [createAll, hone, createLast, hleads]

lemma createLast_name (hfollow : d.follow start above.reverse = .ok place)
    (hdir : d.entryAt? place = some .directory) (hname : IsName last)
    (hfree : ∀ c, d.entryAt? (place ++ [last]) ≠ some (.file c)) :
    (d.createLast start last above).2 = none := by
  rw [createLast, createDirectory_eq, hfollow]
  simp only [if_pos hdir, hname.ne_up, false_or]
  by_cases hnone : d.entryAt? (place ++ [last]) = none
  · simp [hnone]
  · have hthere := entryAt?_eq_directory hnone hfree
    have hleads : d.leadsToDirectory start (last :: above) = true := by
      refine leadsToDirectory_iff.mpr ⟨place ++ [last], ?_, hthere⟩
      rw [List.reverse_cons]
      exact follow_concat_eq_ok_iff.mpr
        ⟨place, hfollow, hdir, (walkStep_of_isName hname).symm, fun _ _ => hnone⟩
    simp [hnone, hleads]

/-- **Names below a directory can all be made directories** where none of them is a file's. -/
lemma createAll_names {ss names : List Text} (hidle : ∀ s ∈ ss, isIdle s = false)
    (hfollow : d.follow start ss = .ok place) (hdir : d.entryAt? place = some .directory)
    (hnames : ∀ n ∈ names, IsName n)
    (hfree : ∀ front c, front <+: names → d.entryAt? (place ++ front) ≠ some (.file c)) :
    (d.createAll start (ss ++ names).reverse).2 = none := by
  induction names using List.reverseRecOn with
  | nil => rw [List.append_nil, createAll_of_follow hidle hfollow hdir]
  | append_singleton names n ih =>
      have hn : IsName n := hnames n (by simp)
      have hns : ∀ m ∈ names, IsName m := fun m hm => hnames m (by simp [hm])
      have hall : d.follow start (ss ++ names) = d.follow place names := by
        rw [follow_append, hfollow]
      have hrev : (ss ++ (names ++ [n])).reverse = n :: (ss ++ names).reverse := by simp
      rw [hrev, createAll]
      rcases follow_names hdir hns fun above below c heq _ =>
          hfree above c ⟨below ++ [n], by simp [heq]⟩ with
        ⟨hok, hthere⟩ | ⟨hmissing, -⟩
      · have hplace := entryAt?_eq_directory hthere fun c => hfree names c (by simp)
        have hlast : (d.createLast start n (ss ++ names).reverse).2 = none := by
          refine createLast_name (by rw [List.reverse_reverse, hall, hok]) hplace hn fun c => ?_
          rw [List.append_assoc]
          exact hfree _ c List.prefix_rfl
        split
        · next hmissing =>
            rw [createDirectory_eq, List.reverse_reverse, hall, hok] at hmissing
            simp only [if_pos hplace] at hmissing
            split_ifs at hmissing
            simp at hmissing
        · exact hlast
      · -- the directories above have to be made first
        have hone : d.createDirectory start n (ss ++ names).reverse = .error .notFound := by
          rw [createDirectory_eq, List.reverse_reverse, hall, hmissing]
        rcases hrest : d.createAll start (ss ++ names).reverse with ⟨ready, fault?⟩
        have hnone := ih hns fun front c hf => hfree front c (hf.trans (by simp))
        rw [hrest] at hnone
        obtain rfl : fault? = none := hnone
        have hne : (ss ++ names).reverse ≠ [] := by
          rintro hnil
          rw [List.reverse_eq_nil_iff, List.append_eq_nil_iff] at hnil
          rw [hnil.2] at hmissing
          simp [follow] at hmissing
        have hidle' : ∀ s ∈ (ss ++ names).reverse, isIdle s = false := by
          intro s hs
          rcases List.mem_append.mp (List.mem_reverse.mp hs) with hs | hs
          · exact hidle s hs
          · exact (hns s hs).not_idle
        obtain ⟨hadds, hleads⟩ := createAll_spec hidle' hrest
        obtain ⟨target, htarget, htdir⟩ := hleads rfl hne
        have hat : target = place ++ names := by
          rw [List.reverse_reverse] at htarget
          rw [walk_of_follow htarget, walk_append, ← walk_of_follow hfollow, walk_of_isName hns]
        simp only [hone]
        refine createLast_name htarget htdir hn fun c hc => ?_
        rw [hadds.sameFiles, hat, List.append_assoc] at hc
        exact hfree _ c List.prefix_rfl hc

/-! ### Files -/

/-- **What writing does** to a path that ends in a name. -/
lemma write_eq (d : Disk) {path last : Text} {above : List Text} (text : Text)
    (hpath : segments path = above ++ [last]) (hlast : IsName last) :
    d.write path text =
      match d.follow (d.startOf path) above with
      | .error fault => .error fault
      | .ok place =>
        if d.entryAt? place = some .directory then
          if d.entryAt? (place ++ [last]) = some .directory then .error .isADirectory
          else .ok { d with root := d.root.put (place ++ [last]) (.file (.text text)) }
        else .error .notADirectory := by
  have hne : path ≠ [] := by
    rintro rfl
    have hnil : above ++ [last] = [[]] := hpath.symm
    rw [List.append_eq_singleton_iff] at hnil
    simp [hlast.ne_nil] at hnil
  have hname : (isIdle last || last == ['.', '.']) = false := by simp [hlast.not_idle, hlast.ne_up]
  rw [write, hpath]
  simp only [List.dropLast_concat, List.getLastD_concat, List.isEmpty_iff, hne, hname, if_false]
  cases d.follow (d.startOf path) above with
  | error fault => rfl
  | ok place =>
      simp only [← isDirectoryAt_iff, bind, Except.bind]
      cases d.isDirectoryAt place with
      | false => rfl
      | true =>
          rw [isDirectoryAt]
          cases d.root.get? (place ++ [last]) with
          | none => rfl
          | some t => cases t <;> rfl

/-- A file that has been written stands where the path leads, and nothing else has changed. -/
lemma write_eq_ok {path last : Text} {above : List Text} {text : Text}
    (hpath : segments path = above ++ [last]) (hlast : IsName last)
    (h : d.write path text = .ok d') :
    ∃ place, d.follow (d.startOf path) above = .ok place ∧
      d.entryAt? place = some .directory ∧
      Adds d (place ++ [last]) (.file (.text text)) d' := by
  rw [write_eq d text hpath hlast] at h
  cases hfollow : d.follow (d.startOf path) above with
  | error fault => simp [hfollow] at h
  | ok place =>
      simp only [hfollow] at h
      split_ifs at h with hdir hfree
      rw [Except.ok.injEq] at h
      subst h
      refine ⟨place, rfl, hdir, ?_⟩
      refine @adds_put d place last (.file (.text text)) hdir ⟨hfree, fun h => ?_⟩ ?_
      · simp [Tree.entry] at h
      · intro below hne
        obtain ⟨n, ns, rfl⟩ := List.exists_cons_of_ne_nil hne
        rfl

end Disk

end TemplateGuards
