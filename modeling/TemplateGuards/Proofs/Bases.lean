import TemplateGuards.Config.Load
import TemplateGuards.Proofs.Following

/-!
The bases of configuration files.  A file names its base relative to its own directory, however the
file itself was reached; loading visits one file after the other.

* `Disk.HoldsConfig`, `Disk.NamesBase`: the configuration in a file, and the file that it extends;
* `Disk.locate_basePath_iff`: the path of a base leads from the directory of the file that names it;
* `Disk.visit`, `Disk.loadAt_eq`: one file of the way, and loading as one visit after the other;
* `Disk.visit_eq_continues_iff`: the file to which a visit leads;
* `Disk.StartsAt`, `Disk.loadConfig_of_startsAt`: the file from which loading starts.
-/

namespace TemplateGuards

/-- The name of the configuration that one extends. -/
def Config.baseName (c : Config) : Text := c.base?.getD "default"

namespace Disk

open TemplateGuards.Path

variable {d : Disk} {path name : Text} {place target : List Text} {config : Config}

/-! ### Files with configurations -/

/-- The file at a place holds a configuration. -/
def HoldsConfig (d : Disk) (place : List Text) (config : Config) : Prop :=
  ∃ source, d.entryAt? place = some (.file (.text source)) ∧ Config.parse? source = some config

/-- The place that a name means in a file: a relative one starts from the directory of the file. -/
def baseAt (d : Disk) (place : List Text) (name : Text) : Except FileFault (List Text) :=
  d.follow (if isAbsolute name then [] else place.dropLast) (segments name)

/-- The configuration at a place names the one at another place as its base. -/
structure NamesBase (d : Disk) (place : List Text) (config : Config) (target : List Text) :
    Prop where
  holds : d.HoldsConfig place config
  not_builtIn : Config.builtIn? config.baseName = none
  target : d.baseAt place config.baseName = .ok target

/-! ### Paths of bases -/

/-- **The path of a base** is followed from the directory of the file that names it. -/
lemma follow_basePath {c : Content} (hpath : d.locate path = .ok place)
    (hfile : d.entryAt? place = some (.file c)) :
    d.follow (d.startOf (basePath path name)) (segments (basePath path name)) =
      d.baseAt place name := by
  obtain ⟨above, last, middle, hsegments, hlast, hmiddle, hdir, rfl⟩ :=
    segments_of_locate_file hpath hfile
  obtain ⟨parent, hparent, habs, hsteps⟩ := parent?_eq_some hsegments hlast.not_idle
  rw [basePath, hparent, Option.getD_some, baseAt, List.dropLast_concat]
  cases hname : isAbsolute name with
  | true => simp [join, hname, startOf]
  | false =>
      have hstart : d.startOf parent = d.startOf path := by rw [startOf, startOf, habs]
      have hup : d.follow (d.startOf parent) (steps parent) = .ok middle := by
        rw [hstart, hsteps]
        exact (follow_steps_iff.mp hmiddle).1
      rw [follow_join hname hup hdir, if_neg Bool.false_ne_true]

lemma basePath_ne_nil (h : name ≠ []) : basePath path name ≠ [] := join_ne_nil h

/-- The name of a base ends the path under which it is looked for. -/
lemma suffix_basePath (path name : Text) : name <:+ basePath path name := by
  rw [basePath, join]
  split_ifs
  · exact List.suffix_rfl
  · exact List.suffix_append _ _
  · exact (List.suffix_cons _ _).trans (List.suffix_append _ _)

/-- What the empty name means is no file. -/
lemma entryAt?_of_baseAt_nil (h : d.baseAt place [] = .ok target) :
    d.entryAt? target = some .directory := by
  have hidle : isIdle [] = true := rfl
  obtain ⟨hdir, htarget, -⟩ := follow_singleton_eq_ok_iff.mp h
  rw [htarget, walkStep, if_pos hidle, hdir]

/-- A base that is there is found under its path. -/
lemma locate_basePath_iff {c : Content} (hpath : d.locate path = .ok place)
    (hfile : d.entryAt? place = some (.file c)) :
    d.locate (basePath path name) = .ok target ↔
      basePath path name ≠ [] ∧ d.baseAt place name = .ok target := by
  rw [locate_eq_ok_iff, follow_basePath hpath hfile]

lemma NamesBase.locate {c : Content} (h : d.NamesBase place config target)
    (hpath : d.locate path = .ok place) (htarget : d.entryAt? target = some (.file c)) :
    d.locate (basePath path config.baseName) = .ok target := by
  obtain ⟨source, hsource, -⟩ := h.holds
  refine (locate_basePath_iff hpath hsource).mpr ⟨basePath_ne_nil fun hnil => ?_, h.target⟩
  rw [entryAt?_of_baseAt_nil (hnil ▸ h.target)] at htarget
  simp at htarget

/-! ### Visits -/

/-- What the visit of a file on the way comes to. -/
inductive Visit
  /-- The way ends. -/
  | ends (result : Except LoadFault Config)
  /-- The way goes on, from the configuration in the file to its base. -/
  | continues (config : Config) (path : Text) (place : List Text)

/-- The visit of a file that is new on the way. -/
def visit (d : Disk) (path : Text) (place : List Text) : Visit :=
  match d.readAt place with
  | .error fault => .ends (.error (.unreadable path fault))
  | .ok source =>
    match Config.parse? source with
    | none => .ends (.error (.malformed path))
    | some config =>
      match Config.builtIn? config.baseName with
      | some base => .ends (.ok (config.orBase base))
      | none =>
        match d.locate (basePath path config.baseName) with
        | .error _ => .ends (.error (.baseNotFound config.baseName))
        | .ok base => .continues config (basePath path config.baseName) base

/-- **Loading is one visit after the other**, up to a file that has been visited. -/
lemma loadAt_eq (d : Disk) (way : List (List Text)) (path : Text) (place : List Text) :
    d.loadAt way path place =
      if place ∈ way then .error (.circular path)
      else
        match d.visit path place with
        | .ends result => result
        | .continues config path' place' =>
          (d.loadAt (place :: way) path' place').map config.orBase := by
  rw [loadAt]
  by_cases hmem : place ∈ way
  · simp [hmem]
  · rw [dif_neg (by simpa using hmem), if_neg hmem]
    split
    · next fault hread => simp [visit, hread]
    · next source hread =>
        simp only [visit, hread, Config.baseName]
        cases Config.parse? source with
        | none => rfl
        | some config =>
            cases hbase : Config.builtIn? (config.base?.getD "default") with
            | some base => simp only [hbase]
            | none =>
                simp only [hbase]
                cases d.locate (basePath path (config.base?.getD "default")) <;> rfl

/-- The visit of a file whose base is built in. -/
lemma visit_of_builtIn {base : Config} (h : d.HoldsConfig place config)
    (hbase : Config.builtIn? config.baseName = some base) :
    d.visit path place = .ends (.ok (config.orBase base)) := by
  obtain ⟨source, hsource, hparse⟩ := h
  simp [visit, readAt_eq_ok_iff.mpr hsource, hparse, hbase]

/-- **The file to which a visit leads** is the base that the visited file names. -/
lemma visit_eq_continues_iff {path' : Text} {place' : List Text}
    (hpath : d.locate path = .ok place) :
    d.visit path place = .continues config path' place' ↔
      d.NamesBase place config place' ∧ path' = basePath path config.baseName ∧
        d.locate path' = .ok place' := by
  constructor
  · intro h
    rw [visit] at h
    cases hread : d.readAt place with
    | error fault => simp [hread] at h
    | ok source =>
        simp only [hread] at h
        cases hparse : Config.parse? source with
        | none => simp [hparse] at h
        | some config' =>
            simp only [hparse] at h
            cases hbase : Config.builtIn? config'.baseName with
            | some base => simp [hbase] at h
            | none =>
                simp only [hbase] at h
                cases hlocate : d.locate (basePath path config'.baseName) with
                | error fault => simp [hlocate] at h
                | ok base =>
                    simp only [hlocate, Visit.continues.injEq] at h
                    obtain ⟨rfl, rfl, rfl⟩ := h
                    have hsource := readAt_eq_ok_iff.mp hread
                    obtain ⟨-, htarget⟩ := (locate_basePath_iff hpath hsource).mp hlocate
                    exact ⟨⟨⟨source, hsource, hparse⟩, hbase, htarget⟩, rfl, hlocate⟩
  · rintro ⟨⟨⟨source, hsource, hparse⟩, hbase, -⟩, rfl, hlocate⟩
    simp [visit, readAt_eq_ok_iff.mpr hsource, hparse, hbase, hlocate]

/-! ### Where loading starts -/

/-- The path of the configuration to load: the given one, or that of the first place which holds
one. -/
def configPath? (d : Disk) (userDirectory : Text) : Option Text → Option Text
  | some path => some path
  | none => (configPlaces userDirectory).find? d.holds

/-- Loading starts at the file at a place, under a path. -/
structure StartsAt (d : Disk) (userDirectory : Text) (request : Option Text) (path : Text)
    (place : List Text) : Prop where
  named : d.configPath? userDirectory request = some path
  located : d.locate path = .ok place

lemma loadConfig_of_configPath {userDirectory : Text} {request : Option Text}
    (h : d.configPath? userDirectory request = some path) :
    d.loadConfig userDirectory request = d.loadFile path := by
  cases request with
  | some given =>
      obtain rfl : given = path := Option.some.inj h
      rfl
  | none =>
      have hfind : (configPlaces userDirectory).find? d.holds = some path := h
      rw [loadConfig, hfind]

lemma loadConfig_of_startsAt {userDirectory : Text} {request : Option Text}
    (h : d.StartsAt userDirectory request path place) :
    d.loadConfig userDirectory request = d.loadAt [] path place := by
  rw [loadConfig_of_configPath h.named, loadFile, h.located]

end Disk

end TemplateGuards
