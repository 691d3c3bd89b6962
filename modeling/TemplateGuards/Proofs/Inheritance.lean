import TemplateGuards.Proofs.Bases

/-!
What a configuration inherits.  Along a chain of files, each of which extends the next, every value
is that of the first file which sets it, and of the built-in configuration at the end of the chain
where none does.

* `foldr_orBase_findSome?`, `foldr_orBase_firstList`: what a chain of configurations sets;
* `Disk.BaseChain`: files each of which extends the next, the last a built-in configuration;
* `Disk.loadAt_of_baseChain`: a chain is loaded as one configuration on top of the other;
* `Disk.loadConfig_of_baseChain`: the values of the configuration that is loaded.
-/

namespace TemplateGuards

namespace Config

variable {base : Config} {configs : List Config}

/-! ### Chains of configurations -/

/-- What is inherited as a value: of configurations on top of one another, that of the first which
has one. -/
lemma foldr_orBase_findSome? {α : Type} {value? : Config → Option α}
    (h : ∀ near far, value? (orBase near far) = (value? near).or (value? far)) :
    value? (configs.foldr orBase base) = (configs ++ [base]).findSome? value? := by
  induction configs with
  | nil => cases hb : value? base <;> simp [hb]
  | cons c cs ih =>
      rw [List.foldr_cons, h, ih, List.cons_append, List.findSome?_cons]
      cases value? c <;> rfl

/-- The first list that is not empty, if there is one. -/
def firstList (lists : List (List Text)) : List Text := (lists.find? fun l => !l.isEmpty).getD []

/-- What is inherited as a list: that of the first configuration which has one. -/
lemma foldr_orBase_firstList {list : Config → List Text}
    (h : ∀ near far, list (orBase near far) = orList (list near) (list far)) :
    list (configs.foldr orBase base) = firstList ((configs ++ [base]).map list) := by
  induction configs with
  | nil => cases hb : list base <;> simp [firstList, hb]
  | cons c cs ih =>
      rw [List.foldr_cons, h, ih, List.cons_append, List.map_cons, orList, firstList, firstList,
        List.find?_cons]
      cases list c <;> rfl

end Config

namespace Disk

variable {d : Disk} {base : Config}

/-! ### Chains of files -/

/-- A file with a configuration. -/
structure ConfigFile where
  place : List Text
  config : Config

/-- Files each of which extends the next, the last one a built-in configuration. -/
inductive BaseChain (d : Disk) (base : Config) : List ConfigFile → Prop
  | last {file : ConfigFile} (holds : d.HoldsConfig file.place file.config)
      (builtIn : Config.builtIn? file.config.baseName = some base) : BaseChain d base [file]
  | more {file next : ConfigFile} {files : List ConfigFile}
      (names : d.NamesBase file.place file.config next.place)
      (rest : BaseChain d base (next :: files)) : BaseChain d base (file :: next :: files)

lemma BaseChain.holds {file : ConfigFile} {files : List ConfigFile}
    (h : BaseChain d base (file :: files)) : d.HoldsConfig file.place file.config := by
  cases h with
  | last holds builtIn => exact holds
  | more names rest => exact names.holds

/-- **A chain of files is loaded** as one configuration on top of the other. -/
lemma loadAt_of_baseChain {files : List ConfigFile} {way : List (List Text)} {path : Text}
    {place : List Text} (h : BaseChain d base files) (hpath : d.locate path = .ok place)
    (hplace : files.head?.map ConfigFile.place = some place)
    (hnodup : (files.map ConfigFile.place).Nodup) (hnew : ∀ file ∈ files, file.place ∉ way) :
    d.loadAt way path place = .ok ((files.map ConfigFile.config).foldr Config.orBase base) := by
  induction h generalizing way path place with
  | @last file holds builtIn =>
      obtain rfl : file.place = place := Option.some.inj hplace
      rw [loadAt_eq, if_neg (hnew file (by simp)), visit_of_builtIn holds builtIn]
      rfl
  | @more file next files names rest ih =>
      obtain rfl : file.place = place := Option.some.inj hplace
      obtain ⟨source, hsource, -⟩ := rest.holds
      have hlocate := names.locate hpath hsource
      rw [loadAt_eq, if_neg (hnew file (by simp)),
        (visit_eq_continues_iff hpath).mpr ⟨names, rfl, hlocate⟩]
      rw [List.map_cons, List.nodup_cons] at hnodup
      have hrest := @ih (file.place :: way) _ _ hlocate rfl hnodup.2 fun other hother => by
        rw [List.mem_cons, not_or]
        refine ⟨fun heq => hnodup.1 (heq ▸ List.mem_map_of_mem hother), ?_⟩
        exact hnew other (List.mem_cons_of_mem file hother)
      simp only [hrest]
      rfl

/-- **What a configuration inherits.**  Where the files from the start on are a chain of different
files, loading succeeds, and each value is that of the first file which sets it, or else that of the
built-in configuration at the end. -/
theorem loadConfig_of_baseChain {userDirectory path : Text} {request : Option Text}
    {first : ConfigFile} {files : List ConfigFile}
    (hstart : d.StartsAt userDirectory request path first.place)
    (hchain : BaseChain d base (first :: files))
    (hnodup : ((first :: files).map ConfigFile.place).Nodup) :
    ∃ config, d.loadConfig userDirectory request = .ok config ∧
      let chain := (first :: files).map ConfigFile.config ++ [base]
      config.base? = first.config.base? ∧
      config.dialect? = chain.findSome? Config.dialect? ∧
      config.nesting? = chain.findSome? Config.nesting? ∧
      (∀ field, config.overrides.get field = chain.findSome? fun c => c.overrides.get field) ∧
      config.templateFiles = Config.firstList (chain.map Config.templateFiles) ∧
      config.ignore = Config.firstList (chain.map Config.ignore) := by
  refine ⟨((first :: files).map ConfigFile.config).foldr Config.orBase base, ?_, rfl, ?_, ?_,
    ?_, ?_, ?_⟩
  · rw [loadConfig_of_startsAt hstart]
    exact loadAt_of_baseChain hchain hstart.located rfl hnodup (by simp)
  · exact Config.foldr_orBase_findSome? fun _ _ => rfl
  · exact Config.foldr_orBase_findSome? fun _ _ => rfl
  · intro field
    refine @Config.foldr_orBase_findSome? base _ Text (fun c => c.overrides.get field)
      fun near far => ?_
    rw [Config.orBase, Overrides.orBase, Fields.get_zipWith]
  · exact Config.foldr_orBase_firstList fun _ _ => rfl
  · exact Config.foldr_orBase_firstList fun _ _ => rfl

/-- Three files in two directories: the first sets one override, the second another value of it and
more, and the third extends a built-in configuration. -/
theorem loadConfig_of_baseChain_three :
    let near : Text := "extends: conf/middle.yaml\noverrides:\n  close: A\n"
    let middle : Text :=
      "extends: ./../far.yaml\nnesting: warn\noverrides:\n  close: B\n  user: U\nignore: [x]\n"
    let far : Text := "extends: strict\ndialect: neutral\nignore: [y]\n"
    let d : Disk := ⟨.directory [("azd.yaml", .file (.text near)), ("far.yaml", .file (.text far)),
      ("conf", .directory [("middle.yaml", .file (.text middle))])], []⟩
    let unset : Config := ⟨none, none, .empty, none, [], []⟩
    let close : Overrides := Overrides.empty.set .close (some "A")
    let others : Overrides := (Overrides.empty.set .close (some "B")).set .user (some "U")
    let first : Disk.ConfigFile := ⟨["azd.yaml"],
      { unset with base? := some "conf/middle.yaml", overrides := close }⟩
    let second : Disk.ConfigFile := ⟨["conf", "middle.yaml"],
      { unset with
        base? := some "./../far.yaml", nesting? := some .warn, overrides := others,
        ignore := ["x"] }⟩
    let third : Disk.ConfigFile := ⟨["far.yaml"],
      { unset with base? := some "strict", dialect? := some .neutral, ignore := ["y"] }⟩
    d.StartsAt "/u" (some "./azd.yaml") "./azd.yaml" first.place ∧
    BaseChain d Config.strict [first, second, third] ∧
    ([first, second, third].map ConfigFile.place).Nodup ∧
    ∃ config, d.loadConfig "/u" (some "./azd.yaml") = .ok config ∧
      let chain := [first, second, third].map ConfigFile.config ++ [Config.strict]
      config.base? = first.config.base? ∧
      config.dialect? = chain.findSome? Config.dialect? ∧
      config.nesting? = chain.findSome? Config.nesting? ∧
      (∀ field, config.overrides.get field = chain.findSome? fun c => c.overrides.get field) ∧
      config.templateFiles = Config.firstList (chain.map Config.templateFiles) ∧
      config.ignore = Config.firstList (chain.map Config.ignore) := by
  intro near middle far d unset close others first second third
  have hstart : d.StartsAt "/u" (some "./azd.yaml") "./azd.yaml" first.place :=
    ⟨rfl, by decide +kernel⟩
  have hfirst : d.HoldsConfig first.place first.config :=
    ⟨near, by decide +kernel, by decide +kernel⟩
  have hsecond : d.HoldsConfig second.place second.config :=
    ⟨middle, by decide +kernel, by decide +kernel⟩
  have hthird : d.HoldsConfig third.place third.config :=
    ⟨far, by decide +kernel, by decide +kernel⟩
  have hchain : BaseChain d Config.strict [first, second, third] :=
    .more ⟨hfirst, by decide +kernel, by decide +kernel⟩
      (.more ⟨hsecond, by decide +kernel, by decide +kernel⟩ (.last hthird (by decide +kernel)))
  have hnodup : ([first, second, third].map ConfigFile.place).Nodup := by decide +kernel
  exact ⟨hstart, hchain, hnodup, loadConfig_of_baseChain hstart hchain hnodup⟩

end Disk

end TemplateGuards
