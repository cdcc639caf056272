import Mathlib
import ServingTuner.Proofs.Config.Building

/-!
# Schedules that point at the variants of their stages

The stages of an ensemble are the models that its schedule names.  A schedule points at variants of
them (`ModelConfig.Points`) if each entry that names a model names the variant of that stage instead,
while all other entries are what they were.

Entries are renamed by their having a model name of any kind, though, and an entry whose model name
is no text (`ModelConfig.IsStray`) names no stage.  Such an entry takes the name of a stage that
follows it, so a schedule points at the variants exactly when none follows
(`renameEntries_eq_iff`).
-/

namespace ServingTuner

namespace ModelConfig

variable {config : ModelConfig} {entry : Json} {names : List String} {entries after : List Json}

/-! ### Entries without a stage -/

/-- An entry with a model name that is no text, so that it names no model. -/
def IsStray (entry : Json) : Prop :=
  entry.hasField ConfigField.modelName = true ∧ entryModel entry = none

/-- Whether an entry is stray can be found out. -/
instance : DecidablePred IsStray := fun entry =>
  inferInstanceAs (Decidable (entry.hasField ConfigField.modelName = true ∧ entryModel entry = none))

/-- No stray entry is followed by one that names a model. -/
def StraysLast (entries : List Json) : Prop :=
  entries.Pairwise fun earlier later => IsStray earlier → entryModel later = none

/-- Whether stray entries come last can be found out. -/
instance : DecidablePred StraysLast := fun entries =>
  inferInstanceAs (Decidable
    (entries.Pairwise fun earlier later => IsStray earlier → entryModel later = none))

/-- An entry that names a model has a model name. -/
lemma hasField_of_entryModel {model : String} (h : entryModel entry = some model) :
    entry.hasField ConfigField.modelName = true := by
  cases hfield : entry.field? ConfigField.modelName with
  | none =>
    rw [entryModel, hfield] at h
    cases h
  | some value => rw [Json.hasField, hfield, Option.isSome_some]

/-- An entry without a model name names no model. -/
lemma entryModel_eq_none (h : ¬ entry.hasField ConfigField.modelName = true) :
    entryModel entry = none := by
  by_contra hmodel
  obtain ⟨model, hmodel⟩ := Option.ne_none_iff_exists'.mp hmodel
  exact h (hasField_of_entryModel hmodel)

/-! ### Pointing at variants -/

/-- The entries of a schedule and what becomes of them when it is pointed at variants of the stages:
an entry that names a model takes the name of the next variant, and any other one stays as it
is. -/
inductive Points : List Json → List String → List Json → Prop
  | nil : Points [] [] []
  | stage {entry renamed : Json} {model name : String} {entries after : List Json}
    {names : List String} (hmodel : entryModel entry = some model)
    (hrenamed : entry.setField? ConfigField.modelName (.str name) = some renamed)
    (hrest : Points entries names after) :
    Points (entry :: entries) (name :: names) (renamed :: after)
  | other {entry : Json} {entries after : List Json} {names : List String}
    (hmodel : entryModel entry = none) (hrest : Points entries names after) :
    Points (entry :: entries) names (entry :: after)

/-- A schedule that is pointed at variants names them in order. -/
lemma Points.names_eq (h : Points entries names after) : after.filterMap entryModel = names := by
  induction h with
  | nil => rfl
  | @stage entry renamed model name entries after names hmodel hrenamed hrest ih =>
    have hname := entryModel_renamed (hasField_of_entryModel hmodel) name
    rw [hrenamed, Option.getD_some] at hname
    rw [List.filterMap_cons, hname, ih]
  | other hmodel hrest ih => rw [List.filterMap_cons, hmodel, ih]

/-- Entries that name no model are pointed at no variant. -/
lemma points_of_unnamed (h : ∀ entry ∈ entries, entryModel entry = none) :
    Points entries [] entries := by
  induction entries with
  | nil => exact .nil
  | cons entry entries ih =>
    obtain ⟨hentry, hentries⟩ := List.forall_mem_cons.mp h
    exact .other hentry (ih hentries)

/-- Renaming is over once there are no names or no entries left. -/
lemma eq_nil_of_not_cons
    (h : ∀ name others entry rest, names = name :: others → entries = entry :: rest → False) :
    names = [] ∨ entries = [] := by
  rcases names with _ | ⟨name, others⟩
  · exact Or.inl rfl
  · rcases entries with _ | ⟨entry, rest⟩
    · exact Or.inr rfl
    · exact absurd rfl (h name others entry rest rfl)

/-- Renaming names no fewer models than there were. -/
lemma length_models_le (names : List String) (entries : List Json) :
    (entries.filterMap entryModel).length ≤
      ((renameEntries names entries).filterMap entryModel).length := by
  fun_induction renameEntries names entries with
  | case1 name names entry entries hfield ih =>
    rw [List.filterMap_cons, List.filterMap_cons, entryModel_renamed hfield]
    cases entryModel entry with
    | none => exact ih.trans (Nat.le_succ _)
    | some model => exact Nat.succ_le_succ ih
  | case2 name names entry entries hfield ih =>
    rw [List.filterMap_cons, List.filterMap_cons, entryModel_eq_none hfield]
    exact ih
  | case3 names entries _ => exact le_rfl

/-- As many names as models are named point a schedule at them, if no stray entry is in front of a
stage. -/
lemma points_renameEntries (hlength : names.length = (entries.filterMap entryModel).length)
    (h : StraysLast entries) : Points entries names (renameEntries names entries) := by
  fun_induction renameEntries names entries with
  | case1 name names entry entries hfield ih =>
    obtain ⟨hfirst, hrest⟩ := List.pairwise_cons.mp h
    cases hmodel : entryModel entry with
    | none =>
      -- A stray entry in front leaves no stage behind it that the name could be meant for.
      have hnone : entries.filterMap entryModel = [] :=
        List.filterMap_eq_nil_iff.mpr fun later hlater => hfirst later hlater ⟨hfield, hmodel⟩
      rw [List.filterMap_cons, hmodel, hnone] at hlength
      cases hlength
    | some model =>
      rw [List.filterMap_cons, hmodel] at hlength
      cases entry with
      | obj fields => exact .stage hmodel rfl (ih (Nat.succ.inj hlength) hrest)
      | _ => cases hmodel
  | case2 name names entry entries hfield ih =>
    have hmodel := entryModel_eq_none hfield
    rw [List.filterMap_cons, hmodel] at hlength
    exact .other hmodel (ih hlength (List.pairwise_cons.mp h).2)
  | case3 names entries hover =>
    rcases eq_nil_of_not_cons hover with rfl | rfl
    · have hmodels := List.length_eq_zero_iff.mp hlength.symm
      exact points_of_unnamed (List.filterMap_eq_nil_iff.mp hmodels)
    · obtain rfl := List.length_eq_zero_iff.mp hlength
      exact .nil

/-- Where names that find a stage each are all that is named afterwards, no stray entry is in front
of a stage. -/
lemma straysLast_of_renameEntries (hlength : names.length ≤ (entries.filterMap entryModel).length)
    (h : (renameEntries names entries).filterMap entryModel = names) : StraysLast entries := by
  fun_induction renameEntries names entries with
  | case1 name names entry entries hfield ih =>
    rw [List.filterMap_cons, entryModel_renamed hfield] at h
    obtain ⟨-, hrest⟩ := List.cons.inj h
    have hcount := length_models_le names entries
    rw [hrest] at hcount
    cases hmodel : entryModel entry with
    | none =>
      -- The name is lost on a stray entry, and then too few are left for the stages behind it.
      rw [List.filterMap_cons, hmodel, List.length_cons] at hlength
      exact absurd (hlength.trans hcount) (Nat.not_succ_le_self _)
    | some model =>
      rw [List.filterMap_cons, hmodel] at hlength
      refine List.pairwise_cons.mpr ⟨?_, ih (Nat.le_of_succ_le_succ hlength) hrest⟩
      rintro later - ⟨-, hnone⟩
      rw [hmodel] at hnone
      cases hnone
  | case2 name names entry entries hfield ih =>
    have hmodel := entryModel_eq_none hfield
    rw [List.filterMap_cons, hmodel] at h hlength
    refine List.pairwise_cons.mpr ⟨?_, ih hlength h⟩
    rintro later - ⟨hstray, -⟩
    exact absurd hstray hfield
  | case3 names entries hover =>
    rcases eq_nil_of_not_cons hover with rfl | rfl
    · have hmodels := List.filterMap_eq_nil_iff.mp h
      exact List.pairwise_of_forall_mem_list fun _ _ later hlater _ => hmodels later hlater
    · exact List.Pairwise.nil

/-- Renamed after as many names as it names models, a schedule names just these if and only if no
stray entry is in front of a stage, and then it points at them. -/
theorem renameEntries_eq_iff (h : names.length = (entries.filterMap entryModel).length) :
    ((renameEntries names entries).filterMap entryModel = names ↔ StraysLast entries) ∧
      (StraysLast entries → Points entries names (renameEntries names entries)) := by
  have hpoints : StraysLast entries → Points entries names (renameEntries names entries) :=
    points_renameEntries h
  refine ⟨⟨straysLast_of_renameEntries h.le, ?_⟩, hpoints⟩
  intro hlast
  exact (hpoints hlast).names_eq

/-! ### Ensembles -/

/-- A name of its own does not change the schedule of an ensemble. -/
lemma scheduleEntries_withName (h : config.IsObject) (name : String) :
    (config.withName name).scheduleEntries = config.scheduleEntries := by
  have hfield : (config.withName name).field? ConfigField.ensembleScheduling =
      config.field? ConfigField.ensembleScheduling := by
    rw [withName, field?_withField h, if_neg (by decide)]
  rw [scheduleEntries, hfield, scheduleEntries]

/-- The models that a schedule names are those of its entries. -/
lemma stepModels_eq (config : ModelConfig) :
    config.stepModels = config.scheduleEntries.filterMap entryModel := rfl

end ModelConfig

end ServingTuner
