import Mathlib
import ServingTuner.ServedModel

/-!
# Schedules of ensembles

When the schedule of an ensemble is pointed at variants of its stages, and these are no more than it
names, then every variant finds an entry, and the names are read back off the schedule in order
(`stepModels_withStages`).
-/

namespace ServingTuner

namespace ModelConfig

variable {config : ModelConfig}

/-! ### Configurations that are objects -/

/-- A configuration that takes fields. -/
def IsObject (config : ModelConfig) : Prop := config.content.isObject = true

/-- A configuration that takes fields has some. -/
lemma IsObject.eq_obj (h : config.IsObject) : ∃ fields, config = ⟨.obj fields⟩ := by
  obtain ⟨content⟩ := config
  cases content with
  | obj fields => exact ⟨fields, rfl⟩
  | _ => cases h

/-- A configuration with one more field still takes fields. -/
lemma IsObject.withField (h : config.IsObject) (key : String) (value : Json) :
    (config.withField key value).IsObject := by
  obtain ⟨fields, rfl⟩ := h.eq_obj
  rfl

/-- A configuration under a new name is an object. -/
lemma IsObject.withName (h : config.IsObject) (name : String) : (config.withName name).IsObject :=
  h.withField ConfigField.name (.str name)

/-- A configuration has the name that it was given. -/
lemma name_withName (h : config.IsObject) (name : String) : (config.withName name).name = name := by
  rw [ModelConfig.name, withName, field?_withField h, if_pos rfl]
  rfl

/-! ### Renaming the entries of a schedule -/

/-- The model that an entry of a schedule names. -/
def entryModel (entry : Json) : Option String :=
  (entry.field? ConfigField.modelName).bind Json.string?

/-- An entry with a model name of any kind takes the name of a variant. -/
lemma entryModel_renamed {entry : Json} (h : entry.hasField ConfigField.modelName = true)
    (name : String) :
    entryModel ((entry.setField? ConfigField.modelName (.str name)).getD entry) = some name := by
  cases entry with
  | obj fields =>
    rw [entryModel, Json.setField?, Option.getD_some]
    simp [Json.field?, Json.fields?, Fields.get?_set, Json.string?]
  | _ => simp [Json.hasField, Json.field?, Json.fields?] at h

/-- Renaming keeps the number of entries. -/
lemma length_renameEntries (names : List String) (entries : List Json) :
    (renameEntries names entries).length = entries.length := by
  fun_induction renameEntries names entries with
  | case1 name names entry entries hfield ih => rw [List.length_cons, List.length_cons, ih]
  | case2 name names entry entries hfield ih => rw [List.length_cons, List.length_cons, ih]
  | case3 names entries _ => rfl

/-- Names that find an entry each are read back in order. -/
lemma filterMap_renameEntries {names : List String} {entries : List Json}
    (h : names.length ≤ (entries.filterMap entryModel).length) :
    ∃ rest, (renameEntries names entries).filterMap entryModel = names ++ rest := by
  fun_induction renameEntries names entries with
  | case1 name names entry entries hfield ih =>
    have hshort : names.length ≤ (entries.filterMap entryModel).length := by
      rw [List.filterMap_cons] at h
      split at h <;> simp only [List.length_cons] at h <;> omega
    obtain ⟨rest, hrest⟩ := ih hshort
    refine ⟨rest, ?_⟩
    rw [List.filterMap_cons, entryModel_renamed hfield, hrest]
    rfl
  | case2 name names entry entries hfield ih =>
    have hentry : entryModel entry = none := by
      rw [Json.hasField, Option.not_isSome_iff_eq_none] at hfield
      rw [entryModel, hfield]
      rfl
    rw [List.filterMap_cons, hentry] at h ⊢
    exact ih h
  | case3 names entries hnone =>
    cases names with
    | nil => exact ⟨_, rfl⟩
    | cons name names =>
      cases entries with
      | nil => simp at h
      | cons entry entries => exact absurd rfl (hnone name names entry entries rfl)

/-- Without entries there is nothing to rename. -/
lemma renameEntries_nil (names : List String) : renameEntries names [] = [] := by
  cases names <;> rfl

/-- An entry without a model name stays as it is. -/
lemma renameEntries_of_unnamed {entry : Json} (h : entry.hasField ConfigField.modelName = false)
    (names : List String) : renameEntries names [entry] = [entry] := by
  cases names with
  | nil => rfl
  | cons name names => rw [renameEntries, if_neg (by simp [h])]; rfl

/-- The renamed entries of a schedule stand where the entries stood. -/
lemma items_withItems_renameEntries (names : List String) (steps : Json) :
    (steps.withItems (renameEntries names steps.items)).items =
      renameEntries names steps.items := by
  have hsingle : ∀ {entry : Json}, entry.items = [entry] →
      entry.hasField ConfigField.modelName = false → entry.withItems [entry] = entry →
        (entry.withItems (renameEntries names entry.items)).items =
          renameEntries names entry.items := by
    intro entry hitems hfield hwith
    rw [hitems, renameEntries_of_unnamed hfield, hwith, hitems]
  cases steps with
  | null => exact (renameEntries_nil names).symm
  | arr entries => rfl
  | obj fields =>
    have hlength : (renameEntries names (Fields.values fields)).length ≤
        (Fields.keys fields).length := by
      rw [length_renameEntries, Fields.values, Fields.keys, List.length_map, List.length_map]
    exact List.map_snd_zip hlength
  | _ => exact hsingle rfl rfl rfl

/-- The entries of a schedule with steps are those of the steps. -/
lemma scheduleEntries_of_some {steps : Json}
    (h : (config.field? ConfigField.ensembleScheduling).bind (·.field? ConfigField.step) =
      some steps) : config.scheduleEntries = steps.items := by
  rw [scheduleEntries, h]

/-- Without a schedule of steps there are no entries. -/
lemma scheduleEntries_of_none
    (h : (config.field? ConfigField.ensembleScheduling).bind (·.field? ConfigField.step) = none) :
    config.scheduleEntries = [] := by
  rw [scheduleEntries, h]

/-- The entries of a schedule that is pointed at variants are the renamed ones. -/
lemma scheduleEntries_withStages (h : config.IsObject) (names : List String) :
    (config.withStages names).scheduleEntries = renameEntries names config.scheduleEntries := by
  rw [withStages]
  split
  · rename_i scheduling hfield
    split
    · rename_i steps hsteps
      have hbefore : config.scheduleEntries = steps.items := by
        apply scheduleEntries_of_some
        rw [hfield]
        exact hsteps
      have hafter : (config.withField ConfigField.ensembleScheduling
          (.obj (Fields.set ConfigField.step
            (steps.withItems (renameEntries names steps.items)) scheduling))).scheduleEntries =
          (steps.withItems (renameEntries names steps.items)).items := by
        apply scheduleEntries_of_some
        rw [field?_withField h, if_pos rfl]
        exact (Fields.get?_set _ _ _ _).trans (if_pos rfl)
      rw [hbefore]
      exact hafter.trans (items_withItems_renameEntries names steps)
    · rename_i hsteps
      rw [scheduleEntries_of_none, renameEntries_nil]
      rw [hfield]
      exact hsteps
  · rename_i hfield
    rw [scheduleEntries_of_none, renameEntries_nil]
    cases hscheduling : config.field? ConfigField.ensembleScheduling with
    | none => rfl
    | some scheduling =>
      cases scheduling with
      | obj fields => exact absurd hscheduling (hfield fields)
      | _ => rfl

/-- An ensemble that is pointed at no more variants than it names models names these variants
first. -/
lemma stepModels_withStages (h : config.IsObject) {names : List String}
    (hlength : names.length ≤ config.stepModels.length) :
    ∃ rest, (config.withStages names).stepModels = names ++ rest := by
  rw [stepModels, scheduleEntries_withStages h]
  exact filterMap_renameEntries hlength

/-- An ensemble that is pointed at variants is an object. -/
lemma IsObject.withStages (h : config.IsObject) (names : List String) :
    (config.withStages names).IsObject := by
  rw [ModelConfig.withStages]
  split
  · split
    · exact h.withField _ _
    · exact h
  · exact h

end ModelConfig

end ServingTuner
