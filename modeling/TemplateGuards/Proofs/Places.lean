import TemplateGuards.Files.Disk
import Mathlib.Data.List.Induction

/-!
What stands at the places of a tree, and what a tree put at one of them changes.

* `Entry`, `Tree.entryAt?`, `Disk.entryAt?`: a file with its content, or a directory without what
  it holds;
* `Tree.entryAt?_put`: a new entry stands at its own place, and nothing else changes;
* `Disk.GrowsTo`, `Disk.SameFiles`: what stays when entries are added.
-/

namespace TemplateGuards

/-- What stands at a place. -/
inductive Entry
  | file (content : Content)
  | directory
deriving DecidableEq, Repr

namespace Tree

/-- The tree without what it holds. -/
def entry : Tree → Entry
  | file content => .file content
  | directory _ => .directory

/-- What stands at a place of a tree. -/
def entryAt? (t : Tree) (place : List Text) : Option Entry := (t.get? place).map entry

/-! ### One more entry -/

lemma lookup_cons_eq_ite (name other : Text) (t : Tree) (entries : List (Text × Tree)) :
    ((name, t) :: entries).lookup other =
      if other = name then some t else entries.lookup other := by
  rw [List.lookup_cons]
  split <;> simp_all

lemma lookup_putEntry (name other : Text) (new : Tree) (entries : List (Text × Tree)) :
    (putEntry name new entries).lookup other =
      if other = name then some new else entries.lookup other := by
  induction entries with
  | nil => simp [putEntry, lookup_cons_eq_ite]
  | cons e es ih =>
      obtain ⟨n, t⟩ := e
      by_cases hn : n = name
      · subst hn
        by_cases h : other = n <;> simp [putEntry, lookup_cons_eq_ite, h]
      · by_cases h : other = n
        · subst h
          simp [putEntry, hn]
        · simp [putEntry, lookup_cons_eq_ite, hn, ih, h]

/-- What was put at a place is there. -/
lemma get?_put_append {t new : Tree} {above : List Text} {name : Text} (below : List Text)
    (h : t.entryAt? above = some .directory) :
    (t.put (above ++ [name]) new).get? (above ++ [name] ++ below) = new.get? below := by
  induction above generalizing t with
  | nil =>
      cases t with
      | file content => simp [entryAt?, get?, entry] at h
      | directory entries => simp [put, get?, lookup_putEntry]
  | cons n ns ih =>
      cases t with
      | file content => simp [entryAt?, get?] at h
      | directory entries =>
          cases hl : entries.lookup n with
          | none => simp [entryAt?, get?, hl] at h
          | some inner =>
              have hinner : inner.entryAt? ns = some .directory := by
                simpa [entryAt?, get?, hl] using h
              have hput : (directory entries).put (n :: ns ++ [name]) new =
                  directory (putEntry n (inner.put (ns ++ [name]) new) entries) := by
                cases ns <;> simp [put, hl]
              rw [hput]
              simpa [get?, lookup_putEntry] using ih hinner

/-- What is put at a place changes nothing at the places that are not below it. -/
lemma entryAt?_put_of_not_below {t new : Tree} {place other : List Text}
    (h : ¬ place <+: other) : (t.put place new).entryAt? other = t.entryAt? other := by
  induction place generalizing t other with
  | nil => exact absurd List.nil_prefix h
  | cons n ns ih =>
      cases t with
      | file content => cases ns <;> rfl
      | directory entries =>
          cases other with
          | nil =>
              -- the top stays a directory
              cases ns with
              | nil => rfl
              | cons n' ns' => cases hl : entries.lookup n <;> simp [put, hl, entryAt?, get?, entry]
          | cons m ms =>
              rw [List.cons_prefix_cons] at h
              cases ns with
              | nil =>
                  have hne : m ≠ n := fun hmn => h ⟨hmn.symm, List.nil_prefix⟩
                  simp [put, entryAt?, get?, lookup_putEntry, hne]
              | cons n' ns' =>
                  cases hl : entries.lookup n with
                  | none => simp [put, hl]
                  | some inner =>
                      by_cases hmn : m = n
                      · subst hmn
                        have := @ih inner ms fun hp => h ⟨rfl, hp⟩
                        simpa [put, hl, entryAt?, get?, lookup_putEntry] using this
                      · simp [put, hl, entryAt?, get?, lookup_putEntry, hmn]

/-- **What one more entry changes**: what stands at its own place, and nothing else. -/
lemma entryAt?_put {t new : Tree} {above : List Text} {name : Text}
    (habove : t.entryAt? above = some .directory)
    (hold : t.entryAt? (above ++ [name]) ≠ some .directory)
    (hnew : ∀ below, below ≠ [] → new.get? below = none) (place : List Text) :
    (t.put (above ++ [name]) new).entryAt? place =
      if place = above ++ [name] then some new.entry else t.entryAt? place := by
  by_cases hp : above ++ [name] <+: place
  · obtain ⟨below, rfl⟩ := hp
    rw [entryAt?, get?_put_append below habove]
    cases below with
    | nil => simp [get?]
    | cons n ns =>
        rw [if_neg (by simp), hnew _ (by simp), entryAt?, get?_append]
        cases h : t.get? (above ++ [name]) with
        | none => rfl
        | some inner =>
            cases inner with
            | file content => rfl
            | directory entries => simp [entryAt?, h, entry] at hold
  · rw [entryAt?_put_of_not_below hp, if_neg]
    rintro rfl
    exact hp List.prefix_rfl

end Tree

/-! ### What stands on a disk -/

namespace Disk

/-- What stands at a place of the disk. -/
def entryAt? (d : Disk) (place : List Text) : Option Entry := d.root.entryAt? place

lemma isDirectoryAt_iff {d : Disk} {place : List Text} :
    d.isDirectoryAt place = true ↔ d.entryAt? place = some .directory := by
  rw [isDirectoryAt, entryAt?, Tree.entryAt?]
  cases d.root.get? place with
  | none => simp
  | some t => cases t <;> simp [Tree.isDirectory, Tree.entry]

lemma isNone_get?_iff {d : Disk} {place : List Text} :
    (d.root.get? place).isNone = true ↔ d.entryAt? place = none := by
  simp [entryAt?, Tree.entryAt?]

lemma readAt_eq_ok_iff {d : Disk} {place : List Text} {text : Text} :
    d.readAt place = .ok text ↔ d.entryAt? place = some (.file (.text text)) := by
  rw [readAt, entryAt?, Tree.entryAt?]
  cases d.root.get? place with
  | none => simp
  | some t =>
      cases t with
      | directory entries => simp [Tree.entry]
      | file content => cases content <;> simp [Tree.entry]

/-- What lies above something is a directory. -/
lemma entryAt?_of_append {d : Disk} {above below : List Text} (hne : below ≠ [])
    (h : d.entryAt? (above ++ below) ≠ none) : d.entryAt? above = some .directory := by
  rw [entryAt?, Tree.entryAt?, Tree.get?_append] at h
  rw [entryAt?, Tree.entryAt?]
  obtain ⟨n, ns, rfl⟩ := List.exists_cons_of_ne_nil hne
  cases ht : d.root.get? above with
  | none => simp [ht] at h
  | some t =>
      cases t with
      | file content => simp [ht, Tree.get?] at h
      | directory entries => rfl

lemma entryAt?_dropLast {d : Disk} {place : List Text}
    (h : d.entryAt? place = some .directory) : d.entryAt? place.dropLast = some .directory := by
  cases place using List.reverseRecOn with
  | nil => exact h
  | append_singleton above n =>
      rw [List.dropLast_concat]
      exact entryAt?_of_append (List.cons_ne_nil n []) (by simp [h])

/-- What is there and no file is a directory. -/
lemma entryAt?_eq_directory {d : Disk} {place : List Text} (hthere : d.entryAt? place ≠ none)
    (hfree : ∀ c, d.entryAt? place ≠ some (.file c)) : d.entryAt? place = some .directory := by
  cases h : d.entryAt? place with
  | none => exact absurd h hthere
  | some e =>
      cases e with
      | directory => rfl
      | file c => exact absurd h (hfree c)

/-- Every file stays a file and every directory a directory. -/
structure GrowsTo (d d' : Disk) : Prop where
  working : d'.working = d.working
  directory : ∀ place, d.entryAt? place = some .directory → d'.entryAt? place = some .directory
  file : ∀ place content, d.entryAt? place = some (.file content) →
    ∃ content', d'.entryAt? place = some (.file content')

/-- The same files stand on both disks, with the same contents. -/
def SameFiles (d d' : Disk) : Prop :=
  ∀ place content, d'.entryAt? place = some (.file content) ↔
    d.entryAt? place = some (.file content)

lemma GrowsTo.refl (d : Disk) : GrowsTo d d := ⟨rfl, fun _ h => h, fun _ c h => ⟨c, h⟩⟩

lemma GrowsTo.trans {d₁ d₂ d₃ : Disk} (h₁ : GrowsTo d₁ d₂) (h₂ : GrowsTo d₂ d₃) :
    GrowsTo d₁ d₃ where
  working := h₂.working.trans h₁.working
  directory place h := h₂.directory place (h₁.directory place h)
  file place c h := by
    obtain ⟨c', hc'⟩ := h₁.file place c h
    exact h₂.file place c' hc'

lemma GrowsTo.entryAt?_ne_none {d d' : Disk} (h : GrowsTo d d') {place : List Text}
    (hp : d.entryAt? place ≠ none) : d'.entryAt? place ≠ none := by
  cases he : d.entryAt? place with
  | none => exact absurd he hp
  | some e =>
      cases e with
      | directory => simp [h.directory place he]
      | file c =>
          obtain ⟨c', hc'⟩ := h.file place c he
          simp [hc']

/-- What is not a directory and is not nothing cannot become a directory. -/
lemma GrowsTo.not_directory {d d' : Disk} (h : GrowsTo d d') {place : List Text}
    (hp : d.entryAt? place ≠ none) (hd : d.entryAt? place ≠ some .directory) :
    d'.entryAt? place ≠ some .directory := by
  cases he : d.entryAt? place with
  | none => exact absurd he hp
  | some e =>
      cases e with
      | directory => exact absurd he hd
      | file c =>
          obtain ⟨c', hc'⟩ := h.file place c he
          simp [hc']

lemma SameFiles.refl (d : Disk) : SameFiles d d := fun _ _ => Iff.rfl

end Disk

end TemplateGuards
