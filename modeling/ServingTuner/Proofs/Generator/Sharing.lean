import Mathlib
import ServingTuner.Proofs.Generator.Identity
import ServingTuner.Proofs.VariantNames.Repetition

/-!
# Generators that share a registry

Any number of generators can name their variants in one registry (`Fleet`).  A configuration that
one of them has made stays what it is: it is made again, by that generator and by all that are
alike, and nothing is named anew (`run_configAt_again`).  For an ensemble this rests on its stages,
for its text holds the names of their variants; the rule for two steps of naming work takes care of
that.
-/

namespace ServingTuner

/-! ### Configurations that are made again -/

namespace Generator

/-- To name a configuration can be repeated. -/
lemma nameConfig_repeats (entity : String) (config : ModelConfig) (isDefault : Bool) :
    (nameConfig entity config isDefault).Repeats :=
  (Naming.repeats_assign entity config.content isDefault).bind fun name =>
    Naming.repeats_pure (config.withName name)

/-- To name drafts can be repeated. -/
lemma nameDrafts_repeats (isDefault : Bool) (drafts : List Draft) :
    (nameDrafts isDefault drafts).Repeats := by
  induction drafts with
  | nil => exact Naming.repeats_pure []
  | cons draft rest ih =>
    exact (nameConfig_repeats draft.entity draft.config isDefault).bind fun config =>
      ih.bind fun others => Naming.repeats_pure (config :: others)

/-- To build the run of a model can be repeated. -/
lemma modelRun_repeats (g : Generator) (isDefault : Bool) (model : ServedModel)
    (drafts : List Draft) : (g.modelRun isDefault model drafts).Repeats := by
  cases hcomposite : model.isComposite with
  | true =>
    rw [modelRun_of_composite hcomposite]
    exact (nameDrafts_repeats isDefault drafts).bind fun variants =>
      (nameConfig_repeats model.name _ isDefault).bind fun config => Naming.repeats_pure _
  | false =>
    rw [modelRun_of_plain hcomposite]
    exact (nameDrafts_repeats isDefault drafts).bind fun variants => Naming.repeats_pure _

/-- To build the runs of all models can be repeated. -/
lemma modelRuns_repeats (g : Generator) (isDefault : Bool)
    (models : List (ServedModel × List Draft)) : (g.modelRuns isDefault models).Repeats := by
  induction models with
  | nil => exact Naming.repeats_pure []
  | cons pair rest ih =>
    exact (modelRun_repeats g isDefault pair.1 pair.2).bind fun run =>
      ih.bind fun others => Naming.repeats_pure (run :: others)

/-- To build the configuration at a coordinate can be repeated. -/
lemma configAt_repeats (g : Generator) (c : Coordinate) : (g.configAt c).Repeats := by
  rw [configAt_def]
  exact (Naming.repeats_lift (g.space.dimensions.valuesAt c)).bind fun values =>
    (modelRuns_repeats g false (g.drafts g.models values)).bind fun runs =>
      Naming.repeats_pure (RunConfig.mk runs)

/-- To build the default configuration can be repeated. -/
lemma defaultConfig_repeats (g : Generator) : g.defaultConfig.Repeats := by
  rw [defaultConfig_def]
  exact (modelRuns_repeats g true _).bind fun runs => Naming.repeats_pure (RunConfig.mk runs)

/-! ### Generators that are alike -/

/-- Two generators search the same space for the same models within the same bounds. -/
structure Alike (g h : Generator) : Prop where
  space : g.space = h.space
  bounds : g.bounds = h.bounds
  models : g.models = h.models

/-- A generator is like itself. -/
lemma Alike.refl (g : Generator) : g.Alike g := ⟨rfl, rfl, rfl⟩

/-- Generators that are like the same one are alike. -/
lemma Alike.trans {g h k : Generator} (hgh : g.Alike h) (hhk : h.Alike k) : g.Alike k :=
  ⟨hgh.space.trans hhk.space, hgh.bounds.trans hhk.bounds, hgh.models.trans hhk.models⟩

/-- Likeness goes both ways. -/
lemma Alike.symm {g h : Generator} (hgh : g.Alike h) : h.Alike g :=
  ⟨hgh.space.symm, hgh.bounds.symm, hgh.models.symm⟩

/-- Generators that are alike differ in their cursors and phases only. -/
lemma Alike.eq_moved {g h : Generator} (hgh : g.Alike h) :
    h = { g with cursor := h.cursor, phase := h.phase } := by
  obtain ⟨space, bounds, models, cursor, phase⟩ := h
  obtain ⟨rfl, rfl, rfl⟩ := hgh
  rfl

/-- Of a generator the runs of drafts depend on the bounds only. -/
lemma modelRuns_congr {g h : Generator} (hbounds : g.bounds = h.bounds) (isDefault : Bool)
    (models : List (ServedModel × List Draft)) :
    h.modelRuns isDefault models = g.modelRuns isDefault models := by
  induction models with
  | nil => rfl
  | cons pair rest ih =>
    rw [modelRuns, modelRuns, ih, modelRun, modelRun, concurrencyOf, concurrencyOf, hbounds]

/-- Of a generator the default configuration depends on the bounds and the models only. -/
lemma defaultConfig_congr {g h : Generator} (hbounds : g.bounds = h.bounds)
    (hmodels : g.models = h.models) : h.defaultConfig = g.defaultConfig := by
  have hdrafts : h.defaultDraft = g.defaultDraft := by
    funext unit
    rw [defaultDraft, defaultDraft, defaultDraftWith, defaultDraftWith, hbounds]
  rw [defaultConfig_def, defaultConfig_def, configOf, configOf, modelRuns_congr hbounds, hmodels,
    hdrafts]

/-- Generators that are alike have the same configuration at a coordinate. -/
lemma Alike.configAt_eq {g h : Generator} (hgh : g.Alike h) (c : Coordinate) :
    h.configAt c = g.configAt c := by
  have hdrafts : h.drafts h.models = g.drafts g.models := by
    funext values
    rw [hgh.eq_moved]
    exact drafts_moved g _ _ g.models values
  rw [configAt_def, configAt_def, hdrafts, hgh.space]
  simp only [configOf, modelRuns_congr hgh.bounds]

/-- Generators that are alike have the same default configuration. -/
lemma Alike.defaultConfig_eq {g h : Generator} (hgh : g.Alike h) :
    h.defaultConfig = g.defaultConfig :=
  defaultConfig_congr hgh.bounds hgh.models

end Generator

namespace Session

variable {s later : Session} {config : RunConfig}

/-- A call that does not clear the registry keeps all names. -/
lemma call_keeps (s : Session) {c : SessionCall} (hc : c ≠ .registry .clear) :
    s.names.Keeps (s.call c).2.names := by
  have hdefault : s.names.Keeps (s.call .standard).2.names :=
    s.generator.defaultConfig_repeats.keeps s.names
  have hconfig : ∀ c, s.names.Keeps (s.call (.configAt c)).2.names := fun c =>
    (s.generator.configAt_repeats c).keeps s.names
  cases c with
  | next =>
    cases hphase : s.generator.phase with
    | default =>
      rw [call_next_of_default hphase]
      exact hdefault
    | stepping =>
      rw [call_next_of_stepping hphase]
      exact hconfig s.generator.cursor
  | standard => exact hdefault
  | configAt c => exact hconfig c
  | moveTo c =>
    rw [call]
    cases s.generator.moveTo c <;> exact VariantNames.Keeps.refl s.names
  | registry c => exact s.names.call_keeps fun hclear => hc (by rw [hclear])

/-- A call leaves the generator alike to what it was. -/
lemma alike_call (s : Session) (c : SessionCall) : s.generator.Alike (s.call c).2.generator := by
  obtain ⟨phase, hgenerator, -⟩ := s.call_generator c
  rw [hgenerator]
  exact ⟨rfl, rfl, rfl⟩

/-- Calls leave the generator alike to what it was. -/
lemma alike_run (s : Session) (calls : List SessionCall) :
    s.generator.Alike (s.run calls).generator := by
  obtain ⟨phase, hgenerator, -⟩ := s.run_generator calls
  rw [hgenerator]
  exact ⟨rfl, rfl, rfl⟩

/-- A coordinate is answered again as it was by a generator that is alike, in any later registry
that kept the names, and this changes nothing. -/
lemma call_configAt_again {c : Coordinate} (h : (s.call (.configAt c)).1 = .ok (.config config))
    (halike : s.generator.Alike later.generator)
    (hkept : (s.call (.configAt c)).2.names.Keeps later.names) :
    later.call (.configAt c) = (.ok (.config config), later) := by
  have hagain : (later.generator.configAt c).outcome later.names = (.ok config, later.names) := by
    rw [halike.configAt_eq c]
    exact (s.generator.configAt_repeats c).again s.names later.names config (configAt_of_call h)
      hkept
  rw [call, hagain]
  rfl

/-- The default configuration is the same for a generator that is alike, in any later registry that
kept the names, and to ask for it changes nothing. -/
lemma call_standard_again (h : (s.call .standard).1 = .ok (.config config))
    (halike : s.generator.Alike later.generator) (hkept : s.names.Keeps later.names) :
    later.call .standard = (.ok (.config config), later) := by
  obtain ⟨standard, houtcome, -⟩ := s.generator.defaultConfig_outcome s.names
  obtain rfl : standard = config := by
    rw [call, houtcome] at h
    cases h
    rfl
  have hmade : (s.generator.defaultConfig.outcome s.names).1 = .ok standard :=
    congrArg Prod.fst houtcome
  have hnames : (s.generator.defaultConfig.outcome s.names).2.Keeps later.names := by
    rw [houtcome]
    exact hkept
  have hagain : later.generator.defaultConfig.outcome later.names =
      (.ok standard, later.names) := by
    rw [halike.defaultConfig_eq]
    exact s.generator.defaultConfig_repeats.again s.names later.names standard hmade hnames
  rw [call, hagain]
  rfl

/-- A configuration at a coordinate does not have the text of the default one if the generator is
alike to a new one over models that were built and all names were assigned. -/
lemma text_ne_standard {space : SearchSpace} {bounds : Bounds} {models : List ServedModel}
    {registry : VariantNames} {g : Generator}
    (hg : Generator.create space bounds models (some registry) = .ok g)
    (hmodels : ∀ model ∈ models, model.IsBuilt)
    (hregistry : VariantNames.empty.Assigned false registry) (halike : g.Alike s.generator)
    (hnames : registry.Assigned false s.names) {c : Coordinate} {standard : RunConfig}
    (h : (s.call (.configAt c)).1 = .ok (.config config))
    (hstandard : ((Session.mk g registry).call .standard).1 = .ok (.config standard)) :
    config.text ≠ standard.text := by
  obtain ⟨rfl, hnonempty, hbounds, hunits⟩ := Generator.create_eq_ok hg
  have hformed : ∀ model ∈ models, model.WellFormed := fun model hmem =>
    (hmodels model hmem).wellFormed
  have hover : s.IsOver _ := ⟨_, _, halike.eq_moved⟩
  have hsize : c.size = space.dimensions.slots.length := by
    by_contra hne
    rw [show space = s.generator.space from halike.space] at hne
    obtain ⟨failure, -, hcall⟩ := call_of_size_ne (s := s) (c := .configAt c) rfl hne
    rw [hcall] at h
    cases h
  obtain ⟨values, hvalues, hcovers⟩ := Generator.exists_covers hunits hsize
  have hruns := runsAt_of_call hover hvalues h (VariantNames.Assigned.refl false _)
  have hall := hregistry.trans (hnames.trans (s.call_assigned (c := .configAt c)
    (by intro own hown; cases hown)))
  have hflags := Generator.hasNumberedFlags (hall.numbered VariantNames.numbered_empty) hbounds
    hformed hcovers hruns
  exact text_ne_call_standard (isOver_start _ registry) hnonempty hformed hflags hstandard

end Session

/-! ### Fleets -/

/-- Generators that share one registry. -/
structure Fleet (ι : Type) where
  generators : ι → Generator
  names : VariantNames

namespace Fleet

open VariantNames

variable {ι : Type} [DecidableEq ι] {f : Fleet ι} {i j : ι}

/-- One of the generators with the registry. -/
def session (f : Fleet ι) (i : ι) : Session := ⟨f.generators i, f.names⟩

/-- What a call on one of the generators, or by its way on the registry, answers, and the fleet
after it. -/
def call (f : Fleet ι) (i : ι) (c : SessionCall) : Except Failure Answer × Fleet ι :=
  (((f.session i).call c).1,
    ⟨Function.update f.generators i ((f.session i).call c).2.generator,
      ((f.session i).call c).2.names⟩)

/-- The fleet after calls. -/
def run (f : Fleet ι) (calls : List (ι × SessionCall)) : Fleet ι :=
  calls.foldl (fun f c => (f.call c.1 c.2).2) f

/-- A call is answered by its own generator, as the registry stands. -/
lemma answer_call (f : Fleet ι) (i : ι) (c : SessionCall) :
    (f.call i c).1 = ((f.session i).call c).1 := rfl

/-- A call changes no other generator than its own. -/
lemma generators_call (f : Fleet ι) (i : ι) (c : SessionCall) :
    (f.call i c).2.generators =
      Function.update f.generators i ((f.session i).call c).2.generator := rfl

/-- A call and then others. -/
lemma run_cons (f : Fleet ι) (c : ι × SessionCall) (calls : List (ι × SessionCall)) :
    f.run (c :: calls) = (f.call c.1 c.2).2.run calls := rfl

/-- A call leaves every generator alike to what it was. -/
lemma alike_call (f : Fleet ι) (i : ι) (c : SessionCall) (j : ι) :
    (f.generators j).Alike ((f.call i c).2.generators j) := by
  rw [generators_call]
  by_cases hj : j = i
  · rw [hj, Function.update_self]
    exact (f.session i).alike_call c
  · rw [Function.update_of_ne hj]
    exact .refl _

/-- Calls leave every generator alike to what it was. -/
lemma alike_run (f : Fleet ι) (calls : List (ι × SessionCall)) (j : ι) :
    (f.generators j).Alike ((f.run calls).generators j) := by
  induction calls generalizing f with
  | nil => exact .refl _
  | cons c calls ih => exact (f.alike_call c.1 c.2 j).trans (ih (f.call c.1 c.2).2)

/-- Calls that do not clear the registry keep all names. -/
lemma run_keeps (f : Fleet ι) {calls : List (ι × SessionCall)}
    (hclear : ∀ c ∈ calls, c.2 ≠ .registry .clear) : f.names.Keeps (f.run calls).names := by
  induction calls generalizing f with
  | nil => exact .refl _
  | cons c calls ih =>
    obtain ⟨hfirst, hrest⟩ := List.forall_mem_cons.mp hclear
    exact ((f.session c.1).call_keeps hfirst).trans (ih (f.call c.1 c.2).2 hrest)

/-- A call that leaves its session as it is leaves the fleet as it is. -/
lemma call_of_session {c : SessionCall} {answer : Except Failure Answer}
    (h : (f.session i).call c = (answer, f.session i)) : f.call i c = (answer, f) := by
  rw [call, h]
  have hsame := Function.update_eq_self i f.generators
  exact congrArg (Prod.mk _) (congrArg (Fleet.mk · f.names) hsame)

/-- Take any number of generators that share a registry, in any state, and any calls on them and on
the registry.  Once a generator has answered a coordinate with a configuration, and as long as the
registry is not cleared after that, the same coordinate is answered with the same configuration, by
that generator and by every one that searches the same space for the same models within the same
bounds; and this leaves all generators and the registry exactly as they are. -/
theorem run_configAt_again (f : Fleet ι) (before between : List (ι × SessionCall))
    (hclear : ∀ c ∈ between, c.2 ≠ .registry .clear)
    (halike : (f.generators i).Alike (f.generators j)) {c : Coordinate} {config : RunConfig}
    (hanswer : ((f.run before).call i (.configAt c)).1 = .ok (.config config)) :
    let later := ((f.run before).call i (.configAt c)).2.run between
    later.call j (.configAt c) = (.ok (.config config), later) := by
  intro later
  let first := f.run before
  have hkept : ((first.session i).call (.configAt c)).2.names.Keeps later.names :=
    run_keeps (first.call i (.configAt c)).2 hclear
  have hlater : (first.generators i).Alike (later.generators j) :=
    (f.alike_run before i).symm.trans <| halike.trans <| (f.alike_run before j).trans <|
      (first.alike_call i (.configAt c) j).trans <| alike_run _ between j
  have hagain : (later.session j).call (.configAt c) = (.ok (.config config), later.session j) :=
    Session.call_configAt_again hanswer hlater hkept
  exact call_of_session hagain

/-- An ensemble keeps its configuration for another generator, though a variant of its stage was
adopted and others were named since it was made. -/
theorem run_configAt_again_after_adoption :
    let f : Fleet Bool := ⟨fun _ => Session.pipelineGenerator, .empty⟩
    let between : List (Bool × SessionCall) :=
      [(true, .next), (false, .registry (.adopt "bert" "bert_config_2" (.obj []))),
        (true, .moveTo ⟨[2, 0]⟩), (true, .next)]
    let later := (f.call false (.configAt ⟨[0, 1]⟩)).2.run between
    (∀ c ∈ between, c.2 ≠ .registry .clear) ∧
    ∃ config, (f.call false (.configAt ⟨[0, 1]⟩)).1 = .ok (.config config) ∧
      later.call true (.configAt ⟨[0, 1]⟩) = (.ok (.config config), later) := by
  intro f between later
  have hclear : ∀ c ∈ between, c.2 ≠ .registry .clear := by simp [between]
  have hroom : ((Session.mk Session.pipelineGenerator .empty).call
      (.configAt ⟨[0, 1]⟩)).2.names.HasRoom :=
    hasRoom_of_entities (by decide +kernel)
  obtain ⟨config, hconfig, -⟩ := Session.call_configAt_ok
    (Session.isOver_start Session.pipelineGenerator .empty) (c := ⟨[0, 1]⟩) rfl
    (Assigned.refl false _) hroom
  have hfirst : (f.call false (.configAt ⟨[0, 1]⟩)).1 = .ok (.config config) := by
    rw [answer_call]
    exact hconfig
  have hagain := run_configAt_again (i := false) (j := true) f [] between hclear (.refl _) hfirst
  exact ⟨hclear, config, hfirst, hagain⟩

end Fleet

end ServingTuner
