import Mathlib
import ServingTuner.Proofs.Generator.Runs

/-!
# Sessions with a generator

A session is a generator with the registry that it shares.  Calls on either of them follow each
other in any order.  No call changes the space, the bounds or the models of the generator, so the
rest of its state is told by the calls (`run_generator`): the cursor by the moves that were
accepted, the phase by whether the next configuration was ever asked for.
-/

namespace ServingTuner

/-- A generator and the registry that it names variants with. -/
structure Session where
  generator : Generator
  names : VariantNames

/-- A call on a generator or on its registry. -/
inductive SessionCall where
  | next
  | standard
  | configAt (c : Coordinate)
  | moveTo (c : Coordinate)
  | registry (c : NameCall)

/-- What a call gives back. -/
inductive Answer where
  | config (config : RunConfig)
  | moved
  | name (name : Option String)

/-- If the call is one on the registry, it names a payload. -/
def SessionCall.OnlyAssigns (c : SessionCall) : Prop :=
  ∀ own, c = .registry own → ∃ entity payload isDefault, own = .assign entity payload isDefault

/-- The coordinate that a call hands over. -/
def SessionCall.coordinate? : SessionCall → Option Coordinate
  | configAt c | moveTo c => some c
  | _ => none

namespace Session

variable {s : Session}

/-- What a call answers, and the session after it. -/
def call (s : Session) : SessionCall → Except Failure Answer × Session
  | .next =>
    match s.generator.next.outcome s.names with
    | (.ok (config, generator), names) => (.ok (.config config), ⟨generator, names⟩)
    | (.error failure, names) => (.error failure, ⟨s.generator, names⟩)
  | .standard =>
    ((s.generator.defaultConfig.outcome s.names).1.map .config,
      ⟨s.generator, (s.generator.defaultConfig.outcome s.names).2⟩)
  | .configAt c =>
    (((s.generator.configAt c).outcome s.names).1.map .config,
      ⟨s.generator, ((s.generator.configAt c).outcome s.names).2⟩)
  | .moveTo c =>
    match s.generator.moveTo c with
    | .ok generator => (.ok .moved, ⟨generator, s.names⟩)
    | .error failure => (.error failure, s)
  | .registry c => ((s.names.call c).1.map .name, ⟨s.generator, (s.names.call c).2⟩)

/-- The session after calls. -/
def run (s : Session) (calls : List SessionCall) : Session :=
  calls.foldl (fun s c => (s.call c).2) s

/-- The coordinate that a call moves the cursor to. -/
def move? (s : Session) : SessionCall → Option Coordinate
  | .moveTo c => if (s.call (.moveTo c)).1.isOk then some c else none
  | _ => none

/-- The coordinates that calls move the cursor to, one after another. -/
def moves (s : Session) : List SessionCall → List Coordinate
  | [] => []
  | c :: calls => (s.move? c).toList ++ (s.call c).2.moves calls

/-! ### One call -/

/-- The default configuration is always there, and to ask for it leaves everything as it is. -/
lemma exists_call_standard (s : Session) :
    ∃ config, s.call .standard = (.ok (.config config), s) ∧
      s.generator.AreRuns s.names true
        (s.generator.models.map fun model => (model, model.units.map s.generator.defaultDraft))
        config := by
  obtain ⟨config, houtcome, hruns⟩ := s.generator.defaultConfig_outcome s.names
  refine ⟨config, ?_, hruns⟩
  rw [call, houtcome]
  rfl

/-- The first configuration of a generator is the default one. -/
lemma call_next_of_default (h : s.generator.phase = .default) :
    s.call .next =
      ((s.call .standard).1,
        ⟨{ s.generator with phase := .stepping }, (s.call .standard).2.names⟩) := by
  obtain ⟨config, houtcome, -⟩ := s.generator.defaultConfig_outcome s.names
  have hnext : s.generator.next.outcome s.names =
      (.ok (config, { s.generator with phase := .stepping }), s.names) := by
    rw [Generator.next_of_default h, Naming.outcome_bind_of_ok houtcome, Naming.outcome_pure]
  rw [call, hnext, call, houtcome]
  rfl

/-- To ask for it starts the steps and names nothing. -/
lemma session_next_of_default (h : s.generator.phase = .default) :
    (s.call .next).2 = ⟨{ s.generator with phase := .stepping }, s.names⟩ := by
  obtain ⟨config, hcall, -⟩ := s.exists_call_standard
  rw [call_next_of_default h, hcall]

/-- Every later one is that at the cursor. -/
lemma call_next_of_stepping (h : s.generator.phase = .stepping) :
    s.call .next = s.call (.configAt s.generator.cursor) := by
  rw [call, call, Generator.next_of_stepping h, Naming.outcome_bind]
  rcases (s.generator.configAt s.generator.cursor).outcome s.names with ⟨_ | config, names⟩ <;> rfl

/-- A move to a coordinate of the right size is accepted. -/
lemma call_moveTo {c : Coordinate} (h : c.size = s.generator.space.dimensions.slots.length) :
    s.call (.moveTo c) = (.ok .moved, ⟨{ s.generator with cursor := c }, s.names⟩) := by
  rw [call, Generator.moveTo, if_pos h]

/-- Past the default configuration, after a move the one at the new cursor is next. -/
lemma call_next_of_moveTo (hphase : s.generator.phase = .stepping) {c : Coordinate}
    (h : c.size = s.generator.space.dimensions.slots.length) :
    (s.call (.moveTo c)).2.call .next = (s.call (.moveTo c)).2.call (.configAt c) := by
  rw [call_next_of_stepping (by rw [call_moveTo h]; exact hphase), call_moveTo h]

/-- A call with a coordinate of a wrong size fails and leaves everything as it is. -/
lemma call_of_size_ne {c : SessionCall} {target : Coordinate} (hc : c.coordinate? = some target)
    (h : target.size ≠ s.generator.space.dimensions.slots.length) :
    ∃ failure, failure.code = .dimensionMismatch ∧ s.call c = (.error failure, s) := by
  cases c with
  | configAt c =>
    obtain rfl : c = target := by simpa [SessionCall.coordinate?] using hc
    refine ⟨.unresolvable c s.generator.space.dimensions.slots.length, rfl, ?_⟩
    rw [call, s.generator.configAt_of_size_ne h s.names]
    rfl
  | moveTo c =>
    obtain rfl : c = target := by simpa [SessionCall.coordinate?] using hc
    refine ⟨.unreachable c s.generator.space.dimensions.slots.length, rfl, ?_⟩
    rw [call, Generator.moveTo, if_neg h]
  | _ => simp [SessionCall.coordinate?] at hc

/-- A configuration that a coordinate is answered with is what comes of building it. -/
lemma configAt_of_call {c : Coordinate} {config : RunConfig}
    (h : (s.call (.configAt c)).1 = .ok (.config config)) :
    ((s.generator.configAt c).outcome s.names).1 = .ok config := by
  rw [call] at h
  cases houtcome : ((s.generator.configAt c).outcome s.names).1 with
  | error failure => rw [houtcome] at h; cases h
  | ok own => rw [houtcome] at h; cases h; rfl

/-- A call leaves the space, the bounds and the models as they are, moves the cursor if it is an
accepted move, and the first request for the next configuration starts the steps. -/
lemma call_generator (s : Session) (c : SessionCall) :
    ∃ phase, (s.call c).2.generator =
        { s.generator with cursor := (s.move? c).getD s.generator.cursor, phase := phase } ∧
      (phase = .stepping ↔ s.generator.phase = .stepping ∨ c = .next) := by
  cases c with
  | next =>
    refine ⟨.stepping, ?_, by simp⟩
    cases hphase : s.generator.phase with
    | default => rw [call_next_of_default hphase]; rfl
    | stepping =>
      rw [call_next_of_stepping hphase]
      show s.generator = { s.generator with phase := .stepping }
      rw [← hphase]
  | standard => exact ⟨s.generator.phase, rfl, by simp⟩
  | configAt c => exact ⟨s.generator.phase, rfl, by simp⟩
  | moveTo c =>
    refine ⟨s.generator.phase, ?_, by simp⟩
    by_cases h : c.size = s.generator.space.dimensions.slots.length
    · rw [move?, call_moveTo h]
      rfl
    · obtain ⟨failure, -, hcall⟩ := call_of_size_ne (s := s) (c := .moveTo c) rfl h
      rw [move?, hcall]
      rfl
  | registry c => exact ⟨s.generator.phase, rfl, by simp⟩

/-- An accepted move has a slot for every dimension. -/
lemma size_of_move? {c : SessionCall} {target : Coordinate} (h : s.move? c = some target) :
    target.size = s.generator.space.dimensions.slots.length := by
  cases c with
  | moveTo c =>
    by_contra hsize
    rw [move?] at h
    split_ifs at h with hok
    obtain rfl : c = target := Option.some.inj h
    obtain ⟨failure, -, hcall⟩ := call_of_size_ne (s := s) (c := .moveTo c) rfl hsize
    rw [hcall] at hok
    cases hok
  | _ => simp [move?] at h

/-- A call that brings a coordinate of the right size, if any, and adopts no name succeeds, unless
some entity has run out of names after it. -/
lemma call_ok {c : SessionCall}
    (hcursor : s.generator.cursor.size = s.generator.space.dimensions.slots.length)
    (hsize : ∀ target, c.coordinate? = some target →
      target.size = s.generator.space.dimensions.slots.length)
    (hadopt : ∀ entity name payload, c ≠ .registry (.adopt entity name payload))
    (hroom : (s.call c).2.names.HasRoom) : ∃ answer, (s.call c).1 = .ok answer := by
  have hconfig : ∀ c : Coordinate, c.size = s.generator.space.dimensions.slots.length →
      (s.call (.configAt c)).2.names.HasRoom →
        ∃ answer, (s.call (.configAt c)).1 = .ok answer := by
    intro c hc hroom
    have hvalues : s.generator.space.dimensions.valuesAt c = .ok _ := if_pos hc
    obtain ⟨config, hok, -⟩ :=
      (Generator.configAt_yields hvalues).answers s.names fun _ => hroom
    exact ⟨.config config, by rw [call, hok]; rfl⟩
  have hstandard : ∃ answer, (s.call .standard).1 = .ok answer := by
    obtain ⟨config, hcall, -⟩ := s.exists_call_standard
    exact ⟨.config config, congrArg Prod.fst hcall⟩
  cases c with
  | next =>
    cases hphase : s.generator.phase with
    | default =>
      rw [call_next_of_default hphase]
      exact hstandard
    | stepping =>
      rw [call_next_of_stepping hphase] at hroom ⊢
      exact hconfig s.generator.cursor hcursor hroom
  | standard => exact hstandard
  | configAt c => exact hconfig c (hsize c rfl) hroom
  | moveTo c => exact ⟨.moved, by rw [call_moveTo (hsize c rfl)]⟩
  | registry c =>
    cases c with
    | assign entity payload isDefault =>
      have hbefore := (s.names.assigned_assign entity payload isDefault).hasRoom hroom
      obtain ⟨name, hname⟩ := VariantNames.assign_ok (hbefore entity) payload isDefault
      exact ⟨.name (some name), by rw [call, VariantNames.call, hname]; rfl⟩
    | adopt entity name payload => exact absurd rfl (hadopt entity name payload)
    | clear => exact ⟨.name none, rfl⟩

/-- A call that does not adopt names and does not clear the registry does nothing to it but name
payloads. -/
lemma call_assigned (s : Session) {c : SessionCall} (hc : c.OnlyAssigns) :
    s.names.Assigned false (s.call c).2.names := by
  cases c with
  | next =>
    cases hphase : s.generator.phase with
    | default =>
      rw [call_next_of_default hphase]
      exact ((s.generator.defaultConfig_yields).assigned s.names).weaken
    | stepping =>
      rw [call_next_of_stepping hphase]
      exact s.generator.configAt_assigned s.generator.cursor s.names
  | standard => exact ((s.generator.defaultConfig_yields).assigned s.names).weaken
  | configAt c => exact s.generator.configAt_assigned c s.names
  | moveTo c =>
    rw [call]
    cases s.generator.moveTo c <;> exact VariantNames.Assigned.refl false s.names
  | registry c =>
    obtain ⟨entity, payload, isDefault, rfl⟩ := hc c rfl
    exact (s.names.assigned_assign entity payload isDefault).weaken

/-! ### Any number of calls -/

/-- Calls and then one more. -/
lemma run_cons (s : Session) (c : SessionCall) (calls : List SessionCall) :
    s.run (c :: calls) = (s.call c).2.run calls := rfl

/-- Calls and then others. -/
lemma run_append (s : Session) (calls others : List SessionCall) :
    s.run (calls ++ others) = (s.run calls).run others := List.foldl_append

/-- The space, the bounds and the models stay as they are, the cursor is the last accepted move, and
the steps have started once the next configuration was asked for. -/
lemma run_generator (s : Session) (calls : List SessionCall) :
    ∃ phase, (s.run calls).generator =
        { s.generator with cursor := (s.moves calls).getLastD s.generator.cursor, phase := phase } ∧
      (phase = .stepping ↔ s.generator.phase = .stepping ∨ .next ∈ calls) := by
  induction calls generalizing s with
  | nil => exact ⟨s.generator.phase, rfl, by simp⟩
  | cons c calls ih =>
    obtain ⟨first, hcall, hfirst⟩ := call_generator s c
    obtain ⟨phase, hrun, hphase⟩ := ih (s.call c).2
    refine ⟨phase, ?_, ?_⟩
    · rw [run_cons, hrun, hcall, moves]
      cases s.move? c with
      | none => rfl
      | some target =>
        simp only [Option.toList_some, List.singleton_append, List.getLastD_cons, Option.getD_some]
    · rw [hphase, hcall, hfirst, List.mem_cons, or_assoc, eq_comm (a := c)]

/-- Calls that do not adopt names and do not clear the registry do nothing to it but name
payloads. -/
lemma run_assigned (s : Session) {calls : List SessionCall} (h : ∀ c ∈ calls, c.OnlyAssigns) :
    s.names.Assigned false (s.run calls).names := by
  induction calls generalizing s with
  | nil => exact VariantNames.Assigned.refl false s.names
  | cons c calls ih =>
    exact (s.call_assigned (h c List.mem_cons_self)).trans
      (ih (s.call c).2 fun c hc => h c (List.mem_cons_of_mem _ hc))

/-- All accepted moves have a slot for every dimension. -/
lemma size_of_mem_moves {target : Coordinate} {calls : List SessionCall}
    (h : target ∈ s.moves calls) :
    target.size = s.generator.space.dimensions.slots.length := by
  induction calls generalizing s with
  | nil => simp [moves] at h
  | cons c calls ih =>
    rcases List.mem_append.mp h with hfirst | hrest
    · exact size_of_move? (by simpa using hfirst)
    · obtain ⟨phase, hcall, -⟩ := call_generator s c
      have hsize := ih hrest
      rwa [hcall] at hsize

/-- The last accepted move has a slot for every dimension if the coordinate to start from does. -/
lemma size_getLastD_moves (s : Session) (calls : List SessionCall) {start : Coordinate}
    (hstart : start.size = s.generator.space.dimensions.slots.length) :
    ((s.moves calls).getLastD start).size = s.generator.space.dimensions.slots.length := by
  rw [List.getLastD_eq_getLast?]
  cases hlast : (s.moves calls).getLast? with
  | none => exact hstart
  | some target => exact size_of_mem_moves (List.mem_of_getLast? hlast)

/-- What calls leave of a new generator: all that it was created from, and a cursor and a phase that
the calls tell. -/
lemma run_new {space : SearchSpace} {bounds : Bounds} {models : List ServedModel}
    {registry : VariantNames} {g : Generator}
    (hg : Generator.create space bounds models (some registry) = .ok g) (calls : List SessionCall) :
    ∃ phase, ((Session.mk g registry).run calls).generator =
        { space, bounds, models
          cursor := ((Session.mk g registry).moves calls).getLastD space.dimensions.start
          phase := phase } ∧
      (phase = .stepping ↔ .next ∈ calls) := by
  obtain ⟨hnew, -, -, -⟩ := Generator.create_eq_ok hg
  obtain ⟨phase, hgenerator, hphase⟩ := run_generator ⟨g, registry⟩ calls
  refine ⟨phase, ?_, ?_⟩
  · rw [hgenerator, hnew]
  · rw [hphase, hnew]
    simp

/-- The cursor of a new generator has a slot for every dimension, whatever calls follow. -/
lemma size_cursor_run {space : SearchSpace} {bounds : Bounds} {models : List ServedModel}
    {registry : VariantNames} {g : Generator}
    (hg : Generator.create space bounds models (some registry) = .ok g) (calls : List SessionCall) :
    ((Session.mk g registry).run calls).generator.cursor.size = space.dimensions.slots.length := by
  obtain ⟨phase, hgenerator, -⟩ := run_new hg calls
  obtain ⟨rfl, -, -, -⟩ := Generator.create_eq_ok hg
  rw [hgenerator]
  exact size_getLastD_moves _ calls (List.length_map _)

/-- Every sequence of calls on a new generator and its registry: the phase is stepping from the
first request for the next configuration on, the cursor is the last accepted move, and a request for
the next configuration is answered as the default one the first time and as the one at the cursor
later.  All values of units that a configuration uses are there.  While every entity has fewer than
`2 ^ 64` names, no call fails but a name that is adopted and a coordinate of a wrong size, and the
latter leaves everything as it is. -/
theorem run_answers {space : SearchSpace} {bounds : Bounds} {models : List ServedModel}
    {registry : VariantNames} {g : Generator}
    (hg : Generator.create space bounds models (some registry) = .ok g)
    (hspace : space.dimensions.Built) (calls : List SessionCall) :
    let s := (Session.mk g registry).run calls
    let slots := space.dimensions.slots.length
    (s.generator.phase = .stepping ↔ .next ∈ calls) ∧
    (s.generator.cursor = ((Session.mk g registry).moves calls).getLastD space.dimensions.start ∧
      s.generator.cursor.size = slots) ∧
    (.next ∉ calls → (s.call .next).1 = (s.call .standard).1 ∧
      (s.call .next).2.names = (s.call .standard).2.names) ∧
    (.next ∈ calls → s.call .next = s.call (.configAt s.generator.cursor)) ∧
    (∀ c values, space.dimensions.valuesAt c = .ok values → s.generator.ReadsInRange values) ∧
    (∀ c : SessionCall, (∀ target, c.coordinate? = some target → target.size = slots) →
      (∀ entity name payload, c ≠ .registry (.adopt entity name payload)) →
      (s.call c).2.names.HasRoom → ∃ answer, (s.call c).1 = .ok answer) ∧
    ∀ (c : SessionCall) target, c.coordinate? = some target → target.size ≠ slots →
      ∃ failure, failure.code = .dimensionMismatch ∧ s.call c = (.error failure, s) := by
  intro s slots
  obtain ⟨-, -, -, hunits⟩ := Generator.create_eq_ok hg
  obtain ⟨phase, hgenerator, hphase⟩ := run_new hg calls
  have hspace' : s.generator.space = space := congrArg Generator.space hgenerator
  have hmodels : s.generator.models = models := congrArg Generator.models hgenerator
  have hstarted : s.generator.phase = .stepping ↔ .next ∈ calls := by
    rw [show s.generator.phase = phase from congrArg Generator.phase hgenerator]
    exact hphase
  have hcursor : s.generator.cursor =
      ((Session.mk g registry).moves calls).getLastD space.dimensions.start :=
    congrArg Generator.cursor hgenerator
  have hsize : s.generator.cursor.size = slots := size_cursor_run hg calls
  refine ⟨hstarted, ⟨hcursor, hsize⟩, ?_, ?_, ?_, ?_, ?_⟩
  · intro hnext
    have hdefault : s.generator.phase = .default := by
      cases hp : s.generator.phase with
      | default => rfl
      | stepping => exact absurd (hstarted.mp hp) hnext
    rw [call_next_of_default hdefault]
    exact ⟨rfl, rfl⟩
  · intro hnext
    exact call_next_of_stepping (hstarted.mpr hnext)
  · intro c values hvalues
    rw [← hspace'] at hvalues hspace hunits
    rw [← hmodels] at hunits
    exact Generator.readsInRange hspace hunits hvalues
  · intro c hc hadopt hroom
    exact call_ok (by rw [hspace']; exact hsize) (by rw [hspace']; exact hc) hadopt hroom
  · intro c target hc hne
    exact call_of_size_ne hc (by rw [hspace']; exact hne)

/-- After a move and the default configuration, the next one is that at the new cursor. -/
theorem run_answers_after_move :
    let model : ServedModel :=
      { name := "bert", baseline := ⟨.obj [("max_batch_size", .int 8), ("name", .str "bert")]⟩,
        flags := [], cpuOnly := false }
    let dimensions : DimensionSet :=
      ⟨[⟨0, ⟨Dimension.batchSize, .exponential, 0⟩⟩, ⟨0, ⟨Dimension.instanceCount, .linear, 1⟩⟩], 1⟩
    let g : Generator :=
      { space := { dimensions }, bounds := {}, models := [model], cursor := ⟨[0, 1]⟩ }
    let s := (Session.mk g .empty).run [.moveTo ⟨[3, 2]⟩, .next]
    Generator.create { dimensions } {} [model] (some .empty) = .ok g ∧ dimensions.Built ∧
      s.call .next = s.call (.configAt ⟨[3, 2]⟩) := by
  intro model dimensions g s
  have hg : Generator.create { dimensions } {} [model] (some .empty) = .ok g := rfl
  have hbuilt : dimensions.Built :=
    @DimensionSet.Built.add {} dimensions 0 (dimensions.dimensionsOf 0) .empty rfl
  obtain ⟨-, ⟨hcursor, -⟩, -, hnext, -⟩ := run_answers hg hbuilt [.moveTo ⟨[3, 2]⟩, .next]
  refine ⟨hg, hbuilt, ?_⟩
  rw [hnext (by simp), hcursor]
  rfl

end Session

end ServingTuner
