import TemplateGuards.Proofs.Bases

/-!
Files that extend themselves.  Loading reads no file twice, and it is refused as circular exactly
where the references lead from the start, through files that can be read and are well formed, back
to one of these files.

* `Disk.Loading`, `Disk.loadReading`: loading together with the places that are read;
* `result_loadReading`, `reads_loadReading`: it loads the same, and reads no place twice;
* `Disk.Refers`, `Disk.Way`: one reference, and the references that lead from one to another;
* `exists_way_of_loadAt`, `loadAt_of_way`: loading follows a way that comes back to itself;
* `loadConfig_circular_iff`: loading that is refused as circular.
-/

namespace TemplateGuards

namespace Disk

variable {d : Disk} {way : List (List Text)} {path : Text} {place : List Text}

/-! ### What is read -/

lemma readAt_of_visit {config : Config} {path' : Text} {place' : List Text}
    (h : d.visit path place = .continues config path' place') :
    ∃ source, d.readAt place = .ok source := by
  rw [visit] at h
  cases hread : d.readAt place with
  | error fault => simp [hread] at h
  | ok source => exact ⟨source, rfl⟩

/-- What loading comes to, and the places that it reads, in this order. -/
structure Loading where
  result : Except LoadFault Config
  reads : List (List Text)

/-- Loading, with the places that are read. -/
def loadReading (d : Disk) (way : List (List Text)) (path : Text) (place : List Text) : Loading :=
  if hnew : place ∈ way then ⟨.error (.circular path), []⟩
  else
    match hvisit : d.visit path place with
    | .ends result => ⟨result, [place]⟩
    | .continues config path' place' =>
      have : (d.unvisited (place :: way)).length < (d.unvisited way).length := by
        obtain ⟨source, hread⟩ := readAt_of_visit hvisit
        exact length_unvisited_lt hread (by simpa using hnew)
      let rest := loadReading d (place :: way) path' place'
      ⟨rest.result.map config.orBase, place :: rest.reads⟩
termination_by (d.unvisited way).length

/-- It loads the same. -/
lemma result_loadReading (d : Disk) (way : List (List Text)) (path : Text) (place : List Text) :
    (d.loadReading way path place).result = d.loadAt way path place := by
  fun_induction loadReading d way path place with
  | case1 way path place hmem => rw [loadAt_eq, if_pos hmem]
  | case2 way path place hnew result hvisit => rw [loadAt_eq, if_neg hnew, hvisit]
  | case3 way path place hnew config path' place' hvisit _ rest ih =>
      rw [loadAt_eq, if_neg hnew, hvisit]
      simp only [← ih, rest]

/-- **No place is read twice**, and none that is on the way. -/
lemma reads_loadReading (d : Disk) (way : List (List Text)) (path : Text) (place : List Text) :
    (d.loadReading way path place).reads.Nodup ∧
      ∀ q ∈ (d.loadReading way path place).reads, q ∉ way := by
  fun_induction loadReading d way path place with
  | case1 way path place hmem => simp
  | case2 way path place hnew result hvisit => simpa using hnew
  | case3 way path place hnew config path' place' hvisit _ rest ih =>
      obtain ⟨hnodup, hfresh⟩ := ih
      refine ⟨List.nodup_cons.mpr ⟨fun hmem => ?_, hnodup⟩, ?_⟩
      · exact hfresh place hmem (by simp)
      · intro q hq
        rcases List.mem_cons.mp hq with rfl | hq
        · exact hnew
        · exact fun hmem => hfresh q hq (by simp [hmem])

/-- All that is read, but what is read last, are files that were not visited before. -/
lemma length_reads_loadReading (d : Disk) (way : List (List Text)) (path : Text)
    (place : List Text) :
    (d.loadReading way path place).reads.length ≤ (d.unvisited way).length + 1 := by
  fun_induction loadReading d way path place with
  | case1 way path place hmem => simp
  | case2 way path place hnew result hvisit => simp
  | case3 way path place hnew config path' place' hvisit hfewer rest ih =>
      simp only [List.length_cons, rest]
      omega

/-! ### References -/

/-- A reference to a file: how it is spelled, and where it leads. -/
structure Reference where
  path : Text
  place : List Text

/-- The file that one reference leads to can be read, is well formed, and extends the file of the
other reference. -/
def Refers (d : Disk) (r r' : Reference) : Prop :=
  ∃ config, d.NamesBase r.place config r'.place ∧ r'.path = basePath r.path config.baseName

/-- The way of references from one to another, through the files at these places. -/
inductive Way (d : Disk) : Reference → List (List Text) → Reference → Prop
  | here (r : Reference) : Way d r [] r
  | step {r r' last : Reference} {places : List (List Text)} (refers : d.Refers r r')
      (rest : Way d r' places last) : Way d r (r.place :: places) last

/-- There is a file at a place. -/
def IsFile (d : Disk) (place : List Text) : Prop := ∃ c, d.entryAt? place = some (.file c)

lemma Refers.isFile {r r' : Reference} (h : d.Refers r r') : d.IsFile r.place := by
  obtain ⟨config, ⟨⟨source, hsource, -⟩, -, -⟩, -⟩ := h
  exact ⟨_, hsource⟩

/-- The last file on a way refers to its end, under a name that ends the path of the reference. -/
lemma Way.exists_name {first last : Reference} {places : List (List Text)}
    (h : d.Way first places last) (hne : places ≠ []) :
    ∃ place config, places.getLast? = some place ∧ d.HoldsConfig place config ∧
      config.baseName <:+ last.path := by
  induction h with
  | here r => exact absurd rfl hne
  | @step r r' last places refers rest ih =>
      cases rest with
      | here r' =>
          obtain ⟨config, hnames, hpath⟩ := refers
          refine ⟨r.place, config, rfl, hnames.holds, ?_⟩
          exact hpath ▸ suffix_basePath r.path config.baseName
      | step refers' rest' => exact ih (by simp)

/-! ### Ways that come back -/

lemma visit_ne_circular {p : Text} : d.visit path place ≠ .ends (.error (.circular p)) := by
  intro h
  rw [visit] at h
  cases hread : d.readAt place with
  | error fault => simp [hread] at h
  | ok source =>
      cases hparse : Config.parse? source with
      | none => simp [hread, hparse] at h
      | some config =>
          simp only [hread, hparse] at h
          cases hbase : Config.builtIn? config.baseName with
          | some base => simp [hbase] at h
          | none =>
              cases hlocate : d.locate (basePath path config.baseName) <;>
                simp [hbase, hlocate] at h

/-- Loading that is refused as circular has followed references back to where it has been. -/
lemma exists_way_of_loadAt {p : Text} (hpath : d.locate path = .ok place)
    (h : d.loadAt way path place = .error (.circular p)) :
    ∃ places last, d.Way ⟨path, place⟩ places last ∧ places.Nodup ∧ (∀ q ∈ places, q ∉ way) ∧
      (last.place ∈ places ∨ last.place ∈ way) ∧ last.path = p := by
  fun_induction loadReading d way path place with
  | case1 way path place hmem =>
      rw [loadAt_eq, if_pos hmem] at h
      obtain rfl : path = p := by simpa using h
      exact ⟨[], _, .here _, by simp, by simp, .inr hmem, rfl⟩
  | case2 way path place hnew result hvisit =>
      rw [loadAt_eq, if_neg hnew, hvisit] at h
      obtain rfl : result = .error (.circular p) := h
      exact absurd hvisit visit_ne_circular
  | case3 way path place hnew config path' place' hvisit _ rest ih =>
      rw [loadAt_eq, if_neg hnew, hvisit] at h
      have hrest : d.loadAt (place :: way) path' place' = .error (.circular p) := by
        cases hload : d.loadAt (place :: way) path' place' with
        | ok config' => simp [hload, Except.map] at h
        | error fault => simpa [hload, Except.map] using h
      obtain ⟨hnames, rfl, hlocate⟩ := (visit_eq_continues_iff hpath).mp hvisit
      obtain ⟨places, last, hway, hnodup, hfresh, hlast, hp⟩ := ih hlocate hrest
      have hplace : place ∉ places := fun hmem => hfresh place hmem (by simp)
      refine ⟨place :: places, last, .step ⟨config, hnames, rfl⟩ hway,
        List.nodup_cons.mpr ⟨hplace, hnodup⟩, ?_, ?_, hp⟩
      · intro q hq
        rcases List.mem_cons.mp hq with rfl | hq
        · exact hnew
        · exact fun hmem => hfresh q hq (by simp [hmem])
      · rcases hlast with hlast | hlast
        · exact .inl (by simp [hlast])
        · rcases List.mem_cons.mp hlast with hlast | hlast
          · exact .inl (by simp [hlast])
          · exact .inr hlast

/-- References that lead back to where loading has been are refused as circular. -/
lemma loadAt_of_way {r last : Reference} {places : List (List Text)} (hway : d.Way r places last)
    (hpath : d.locate r.path = .ok r.place) (hnodup : places.Nodup)
    (hfresh : ∀ q ∈ places, q ∉ way) (hlast : last.place ∈ places ∨ last.place ∈ way)
    (hfiles : ∀ q ∈ way, d.IsFile q) :
    d.loadAt way r.path r.place = .error (.circular last.path) := by
  induction hway generalizing way with
  | here r =>
      have hmem : r.place ∈ way := hlast.resolve_left (by simp)
      rw [loadAt_eq, if_pos hmem]
  | @step r r' last places refers rest ih =>
      have hnew : r.place ∉ way := hfresh _ (by simp)
      obtain ⟨hplace, hnodup⟩ := List.nodup_cons.mp hnodup
      have hfiles' : ∀ q ∈ r.place :: way, d.IsFile q := by
        intro q hq
        rcases List.mem_cons.mp hq with rfl | hq
        · exact refers.isFile
        · exact hfiles q hq
      have hlast' : last.place ∈ places ∨ last.place ∈ r.place :: way := by
        rcases hlast with hlast | hlast
        · exact (List.mem_cons.mp hlast).symm.imp_right fun heq => by simp [heq]
        · exact .inr (by simp [hlast])
      -- the next reference leads to a file, so its path can be located
      obtain ⟨c, hc⟩ : d.IsFile r'.place := by
        cases rest with
        | here _ => exact hfiles' _ (hlast'.resolve_left (by simp))
        | step refers' _ => exact refers'.isFile
      obtain ⟨config, hnames, hspelled⟩ := refers
      have hlocate : d.locate r'.path = .ok r'.place := hspelled ▸ hnames.locate hpath hc
      have hvisit := (visit_eq_continues_iff hpath).mpr ⟨hnames, hspelled, hlocate⟩
      have hrest := ih hlocate hnodup (fun q hq => by
        rw [List.mem_cons, not_or]
        exact ⟨fun heq => hplace (heq ▸ hq), hfresh q (by simp [hq])⟩) hlast' hfiles'
      rw [loadAt_eq, if_neg hnew, hvisit]
      simp only [hrest]
      rfl

/-! ### Loading that is refused as circular -/

/-- Loading the configuration that is asked for, with the places that are read. -/
def loadConfigReading (d : Disk) (userDirectory : Text) (request : Option Text) : Loading :=
  match d.configPath? userDirectory request with
  | none => ⟨.ok .default, []⟩
  | some path =>
    match d.locate path with
    | .error _ => ⟨.error (.notFound path), []⟩
    | .ok place => d.loadReading [] path place

lemma result_loadConfigReading (d : Disk) (userDirectory : Text) (request : Option Text) :
    (d.loadConfigReading userDirectory request).result = d.loadConfig userDirectory request := by
  rw [loadConfigReading]
  cases hpath : d.configPath? userDirectory request with
  | none =>
      cases request with
      | some path => simp [configPath?] at hpath
      | none =>
          have hfind : (configPlaces userDirectory).find? d.holds = none := hpath
          rw [loadConfig, hfind]
  | some path =>
      simp only [loadConfig_of_configPath hpath, loadFile]
      cases d.locate path with
      | error fault => rfl
      | ok place => exact result_loadReading d [] path place

lemma reads_loadConfigReading (d : Disk) (userDirectory : Text) (request : Option Text) :
    (d.loadConfigReading userDirectory request).reads.Nodup ∧
      (d.loadConfigReading userDirectory request).reads.length ≤ d.root.files.length + 1 := by
  rw [loadConfigReading]
  cases d.configPath? userDirectory request with
  | none => simp
  | some path =>
      cases hplace : d.locate path with
      | error fault => simp [hplace]
      | ok place =>
          have hfiles : (d.unvisited []).length ≤ d.root.files.length := List.length_filter_le _ _
          have hlength := length_reads_loadReading d [] path place
          simp only [hplace]
          exact ⟨(reads_loadReading d [] path place).1, by omega⟩

/-- References that lead from one, through different files, back to one of these files. -/
structure ComesBack (d : Disk) (first : Reference) (places : List (List Text)) (last : Reference) :
    Prop where
  way : d.Way first places last
  nodup : places.Nodup
  again : last.place ∈ places

/-- The sentence that reports a circular way is no other fault's. -/
lemma chain_eq_circular_iff {fault : LoadFault} {p : Text} :
    fault.chain = ["Circular extends: " ++ p ++ " is already being loaded"] ↔
      fault = .circular p := by
  cases fault <;> simp [LoadFault.chain]

/-- **Loading ends, having read no place twice.**  It is refused as circular exactly where the
references from the start come back, and the path that is reported is that of the last reference:
it ends in the name by which the last file on the way refers to a file before. -/
theorem loadConfig_circular_iff (d : Disk) (userDirectory : Text) (request : Option Text) :
    (d.loadConfigReading userDirectory request).result = d.loadConfig userDirectory request ∧
    (d.loadConfigReading userDirectory request).reads.Nodup ∧
    (d.loadConfigReading userDirectory request).reads.length ≤ d.root.files.length + 1 ∧
    ∀ p : Text, (∃ fault, d.loadConfig userDirectory request = .error fault ∧
        fault.chain = ["Circular extends: " ++ p ++ " is already being loaded"]) ↔
      ∃ first places last, d.StartsAt userDirectory request first.path first.place ∧
        d.ComesBack first places last ∧ last.path = p ∧
        ∃ place config, places.getLast? = some place ∧ d.HoldsConfig place config ∧
          config.baseName <:+ p := by
  obtain ⟨hnodup, hlength⟩ := reads_loadConfigReading d userDirectory request
  refine ⟨result_loadConfigReading d userDirectory request, hnodup, hlength, fun p => ?_⟩
  constructor
  · rintro ⟨fault, hload, hchain⟩
    obtain rfl := chain_eq_circular_iff.mp hchain
    rw [← result_loadConfigReading, loadConfigReading] at hload
    cases hpath : d.configPath? userDirectory request with
    | none => simp [hpath] at hload
    | some path =>
        cases hplace : d.locate path with
        | error fault => simp [hpath, hplace] at hload
        | ok place =>
            simp only [hpath, hplace, result_loadReading] at hload
            obtain ⟨places, last, hway, hnodup, -, hlast, rfl⟩ := exists_way_of_loadAt hplace hload
            have hagain : last.place ∈ places := hlast.resolve_right (by simp)
            exact ⟨⟨path, place⟩, places, last, ⟨hpath, hplace⟩, ⟨hway, hnodup, hagain⟩, rfl,
              hway.exists_name (List.ne_nil_of_mem hagain)⟩
  · rintro ⟨first, places, last, hstart, hback, rfl, -⟩
    refine ⟨.circular last.path, ?_, rfl⟩
    rw [loadConfig_of_startsAt hstart]
    exact loadAt_of_way hback.way hstart.located hback.nodup (by simp) (.inl hback.again) (by simp)

end Disk

end TemplateGuards
