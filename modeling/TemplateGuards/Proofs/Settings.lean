import TemplateGuards.CommandLine.Basic
import TemplateGuards.Proofs.Overriding

/-!
The settings of a command line.  Each is read on its own, and they are put in place one after the
other, up to the first that names no field.

* `Sets`: the field and the text of a setting;
* `readSetting?_eq_some_iff`: what is read from a setting;
* `Overrides.Settled`: overrides after settings, by the last setting of each field;
* `Overrides.Applied`, `applied_withSettings`: what becomes of overrides and settings;
* `CommandLine.configure_applied`: a configuration with what the command line says in place.
-/

namespace TemplateGuards

/-! ### One setting -/

namespace Text

lemma cut?_append {sep : Char} {before : Text} (after : Text) (h : sep ∉ before) :
    cut? sep (before ++ sep :: after) = some (before, after) := by
  induction before with
  | nil => simp [cut?]
  | cons c before ih =>
      rw [List.mem_cons, not_or] at h
      rw [List.cons_append, cut?, if_neg (Ne.symm h.1), ih h.2]
      rfl

end Text

/-- The setting sets the field to the value: the field is what stands before the first equals sign,
trimmed and not blank, and the value everything after that sign as it is. -/
def Sets (setting field value : Text) : Prop :=
  ∃ before, setting = before ++ '=' :: value ∧ '=' ∉ before ∧ field = Text.trim before ∧ field ≠ []

/-- **What is read from a setting** is what it sets. -/
lemma readSetting?_eq_some_iff {setting field value : Text} :
    readSetting? setting = some (field, value) ↔ Sets setting field value := by
  rw [readSetting?]
  cases hcut : Text.cut? '=' setting with
  | none =>
      simp only [reduceCtorEq, false_iff]
      rintro ⟨before, rfl, hbefore, -⟩
      simp [Text.cut?_append value hbefore] at hcut
  | some parts =>
      obtain ⟨before, after⟩ := parts
      obtain ⟨rfl, hbefore⟩ := Text.cut?_eq_some hcut
      simp only [Option.ite_none_left_eq_some, List.isEmpty_iff, Option.some.injEq, Prod.mk.injEq]
      constructor
      · rintro ⟨hfield, rfl, rfl⟩
        exact ⟨before, rfl, hbefore, rfl, hfield⟩
      · rintro ⟨before', heq, hbefore', rfl, hfield⟩
        rw [heq, Text.cut?_append value hbefore'] at hcut
        obtain ⟨rfl, rfl⟩ : before' = before ∧ value = after := by simpa using hcut
        exact ⟨hfield, rfl, rfl⟩

lemma readSetting?_eq_none_iff {setting : Text} :
    readSetting? setting = none ↔ ∀ field value, ¬ Sets setting field value := by
  simp only [← readSetting?_eq_some_iff, Option.eq_none_iff_forall_ne_some, Prod.forall]

/-- A setting sets one field to one value. -/
lemma Sets.unique {setting field field' value value' : Text} (h : Sets setting field value)
    (h' : Sets setting field' value') : field' = field ∧ value' = value := by
  rw [← readSetting?_eq_some_iff] at h h'
  simpa [h] using h'.symm

/-! ### Settings one after the other -/

/-- Every field that the settings set is one that a dialect has. -/
def SetsKnown (settings : List Text) : Prop :=
  ∀ setting ∈ settings, ∀ field value, Sets setting field value → ∃ f : Field, f.name = field

namespace Overrides

variable {o o₁ o' : Overrides} {settings : List Text} {setting : Text}

/-- The last of the settings that sets the field sets it to the value. -/
def LastSets (settings : List Text) (f : Field) (value : Text) : Prop :=
  ∃ before setting after, settings = before ++ setting :: after ∧ Sets setting f.name value ∧
    ∀ later ∈ after, ∀ v, ¬ Sets later f.name v

/-- The overrides `o'` are `o` after the settings. -/
structure Settled (settings : List Text) (o o' : Overrides) : Prop where
  last : ∀ f value, LastSets settings f value → o'.get f = some value
  other : ∀ f, (∀ setting ∈ settings, ∀ value, ¬ Sets setting f.name value) → o'.get f = o.get f

lemma Settled.nil (o : Overrides) : Settled [] o o :=
  ⟨fun _ _ ⟨_, _, _, heq, _⟩ => by simp at heq, fun _ _ => rfl⟩

/-- A setting that sets nothing changes nothing. -/
lemma Settled.nothing (h : ∀ field value, ¬ Sets setting field value) : Settled [setting] o o where
  last f value := by
    rintro ⟨before, written, after, heq, hsets, -⟩
    obtain rfl : written = setting := List.mem_singleton.mp (by simp [heq])
    exact absurd hsets (h _ _)
  other _ _ := rfl

/-- A setting of a known field changes that field alone. -/
lemma Settled.one {g : Field} {value : Text} (h : Sets setting g.name value) :
    Settled [setting] o (o.set g (some value)) where
  last f v := by
    rintro ⟨before, written, after, heq, hsets, -⟩
    obtain rfl : written = setting := List.mem_singleton.mp (by simp [heq])
    obtain ⟨hname, rfl⟩ := h.unique hsets
    rw [Fields.get_set, if_pos (Field.name_injective hname)]
  other f hf := by
    rw [Fields.get_set, if_neg]
    rintro rfl
    exact hf setting List.mem_cons_self value h

/-- **One more setting before the others.** -/
lemma Settled.cons (h₁ : Settled [setting] o o₁) (h : Settled settings o₁ o') :
    Settled (setting :: settings) o o' where
  last f value := by
    rintro ⟨before, written, after, heq, hsets, hafter⟩
    cases before with
    | nil =>
        obtain ⟨rfl, rfl⟩ := List.cons.inj heq
        rw [h.other f hafter]
        exact h₁.last f value ⟨[], setting, [], rfl, hsets, by simp⟩
    | cons b before =>
        obtain ⟨-, rfl⟩ := List.cons.inj heq
        exact h.last f value ⟨before, written, after, rfl, hsets, hafter⟩
  other f hf := by
    obtain ⟨hfirst, hrest⟩ := List.forall_mem_cons.mp hf
    rw [h.other f hrest, h₁.other f (List.forall_mem_singleton.mpr hfirst)]

/-- What becomes of overrides with settings: all settings are in place, or those before the first
that sets an unknown field. -/
inductive Applied (o : Overrides) (settings : List Text) : Overrides × Option SettingFault → Prop
  | all {o' : Overrides} (known : SetsKnown settings) (settled : Settled settings o o') :
      Applied o settings (o', none)
  | upTo {before rest : List Text} {setting field value : Text} {o' : Overrides}
      (split : settings = before ++ setting :: rest) (known : SetsKnown before)
      (sets : Sets setting field value) (unknown : ∀ f : Field, f.name ≠ field)
      (settled : Settled before o o') : Applied o settings (o', some ⟨field, ⟨field⟩⟩)

/-- One more setting that is in place before the others. -/
lemma Applied.cons {result : Overrides × Option SettingFault}
    (hknown : SetsKnown [setting]) (h₁ : Settled [setting] o o₁)
    (h : Applied o₁ settings result) : Applied o (setting :: settings) result := by
  have hcons : ∀ {ws : List Text}, SetsKnown ws → SetsKnown (setting :: ws) := fun hws =>
    List.forall_mem_cons.mpr ⟨hknown setting List.mem_cons_self, hws⟩
  cases h with
  | all known settled => exact .all (hcons known) (h₁.cons settled)
  | upTo split known sets unknown settled =>
      exact .upTo (by rw [split]; rfl) (hcons known) sets unknown (h₁.cons settled)

/-- **What becomes of overrides** when settings are put in place one after the other. -/
lemma applied_withSettings (o : Overrides) (settings : List Text) :
    Applied o settings (o.withSettings (settings.filterMap readSetting?)) := by
  induction settings generalizing o with
  | nil => exact .all (by simp [SetsKnown]) (.nil o)
  | cons setting settings ih =>
      cases hread : readSetting? setting with
      | none =>
          have hnothing := readSetting?_eq_none_iff.mp hread
          rw [List.filterMap_cons_none hread]
          refine .cons (List.forall_mem_singleton.mpr fun field value hsets => ?_)
            (.nothing hnothing) (ih o)
          exact absurd hsets (hnothing field value)
      | some call =>
          obtain ⟨field, value⟩ := call
          have hsets := readSetting?_eq_some_iff.mp hread
          rw [List.filterMap_cons_some hread, withSettings]
          obtain ⟨f, rfl, hset⟩ | ⟨hno, hset⟩ := setNamed_cases o field value
          · simp only [hset]
            refine .cons (List.forall_mem_singleton.mpr fun field' value' hsets' => ?_)
              (.one hsets) (ih _)
            exact ⟨f, (hsets.unique hsets').1.symm⟩
          · simp only [hset]
            have hsplit : setting :: settings = [] ++ setting :: settings := rfl
            exact .upTo hsplit (by simp [SetsKnown]) hsets hno (.nil o)

/-- All settings are in place exactly when all fields are known. -/
lemma Applied.eq_none_iff {fault? : Option SettingFault} (h : Applied o settings (o', fault?)) :
    fault? = none ↔ SetsKnown settings := by
  cases h with
  | all known settled => simp [known]
  | upTo split known sets unknown settled =>
      simp only [reduceCtorEq, false_iff]
      intro hall
      obtain ⟨f, hf⟩ := hall _ (by simp [split]) _ _ sets
      exact unknown f hf

end Overrides

/-! ### The command line -/

/-- **A configuration with what the command line says in place.**  A setting sets what stands before
its first equals sign, trimmed, to what comes after it, and nothing where that is blank or no sign
is there.  If all fields are known, each has the text of the last setting that sets it, or else the
configuration's own; if not, the first unknown field is reported and only the settings before it
are in place.  The dialect and the nesting policy are replaced where they are given, and nothing
else is changed. -/
theorem CommandLine.configure_applied (line : CommandLine) (config : Config) :
    Overrides.Applied config.overrides line.settings
      ((line.configure config).1.overrides, (line.configure config).2) ∧
    ((line.configure config).2 = none ↔ SetsKnown line.settings) ∧
    (line.configure config).1.dialect? =
      (if line.dialect?.isSome then line.dialect? else config.dialect?) ∧
    (line.configure config).1.nesting? =
      (if line.nesting?.isSome then line.nesting? else config.nesting?) ∧
    (line.configure config).1.base? = config.base? ∧
    (line.configure config).1.templateFiles = config.templateFiles ∧
    (line.configure config).1.ignore = config.ignore := by
  have happlied := Overrides.applied_withSettings config.overrides line.settings
  refine ⟨happlied, happlied.eq_none_iff, ?_, ?_, rfl, rfl, rfl⟩
  · cases h : line.dialect? <;> simp [configure, h]
  · cases h : line.nesting? <;> simp [configure, h]

/-- Settings that set nothing, white space around a field and in a value, and an unknown field. -/
example :
    let line : CommandLine := ⟨.check, [], none, .human, none, none,
      ["user", " = x", "user\u00a0=a=b ", "close=c", "close=", "nope =d", "user=e"],
      false, false, false⟩
    ((line.configure .default).1.overrides, (line.configure .default).2) =
      (⟨none, none, none, some [], some "a=b ", none⟩, some ⟨"nope", ⟨"nope"⟩⟩) := by
  decide +kernel

end TemplateGuards
