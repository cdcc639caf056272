import Mathlib
import ServingTuner.Constraint.Reader
import ServingTuner.Proofs.Ranking.Order

/-!
# Constraints that are read

What a source of constraints has to look like is said entry by entry (`RunConstraints.WellFormed`),
and so is what it gives to each model (`RunConstraints.given`), both without regard to the readers.
The readers accept just these sources and answer just that.  They look at the entries of the models
that are listed and at the default entry, which must be well formed even where no model falls back to
it, and at no other entry (`RunConstraints.forModels_grammar`).
-/

namespace ServingTuner

open Quantity

/-! ### The constraint of one metric -/

namespace Constraint

variable {limits : Json} {tag : String} {c : Constraint Float}

/-- The number that is given under a key, as a double. -/
def numberAt? (limits : Json) (key : String) : Option Float := (limits.field? key).bind Json.number?

/-- The constraint that is given by an object. -/
def given (limits : Json) : Constraint Float := ⟨numberAt? limits "min", numberAt? limits "max"⟩

/-- Two limits are in order if the lower one is at most the upper one.  No number of a text is NaN, but
if a limit is, then no order is asked for. -/
def InOrder (low high : Float) : Prop := low ≤ high ∨ low.isNaN = true ∨ high.isNaN = true

/-- A constraint is an object whose limits, where there are any, are numbers and in order as
doubles. -/
structure WellFormed (limits : Json) : Prop where
  isObject : limits.isObject = true
  numbers : ∀ key ∈ ["min", "max"], ∀ value, limits.field? key = some value →
    ∃ x, value.number? = some x
  ordered : ∀ low ∈ numberAt? limits "min", ∀ high ∈ numberAt? limits "max", InOrder low high

/-- A limit is read where it is missing or a number. -/
lemma readLimit_eq_ok_iff {side : BoundSide} {limit : Option Float} :
    readLimit tag side limits = .ok limit ↔
      (∀ value, limits.field? side.word = some value → ∃ x, value.number? = some x) ∧
        limit = numberAt? limits side.word := by
  unfold readLimit numberAt?
  rcases limits.field? side.word with _ | value
  · simp [eq_comm]
  · rcases hnumber : value.number? with _ | x
    · simp [hnumber]
    · simp [hnumber, eq_comm]

/-- A constraint is read just where it is well formed, as it is given. -/
lemma ofJson_eq_ok_iff : ofJson tag limits = .ok c ↔ WellFormed limits ∧ c = given limits := by
  unfold ofJson
  cases hobject : limits.isObject with
  | false =>
    refine iff_of_false (by simp) ?_
    rintro ⟨hwell, -⟩
    rw [hwell.isObject] at hobject
    cases hobject
  | true =>
    simp only [Bool.not_true, Bool.false_eq_true, if_false, bind_eq_ok, readLimit_eq_ok_iff,
      BoundSide.word]
    constructor
    · rintro ⟨lower, ⟨hmin, hlower⟩, upper, ⟨hmax, hupper⟩, hread⟩
      have hnumbers : ∀ key ∈ ["min", "max"], ∀ value, limits.field? key = some value →
          ∃ x, value.number? = some x := by simpa using ⟨hmin, hmax⟩
      split at hread
      · split_ifs at hread with hcrossed
        refine ⟨⟨hobject, hnumbers, ?_⟩, by rw [given, ← hlower, ← hupper, Except.ok.inj hread]⟩
        rw [← hlower, ← hupper]
        rintro _ ⟨⟩ _ ⟨⟩
        exact double_not_lt_iff.mp hcrossed
      · rename_i hopen
        refine ⟨⟨hobject, hnumbers, ?_⟩, by rw [given, ← hlower, ← hupper, Except.ok.inj hread]⟩
        intro low hlow high hhigh
        exact (hopen low high (hlower.trans hlow) (hupper.trans hhigh)).elim
    · rintro ⟨hwell, rfl⟩
      refine ⟨_, ⟨hwell.numbers _ (by decide), rfl⟩, _, ⟨hwell.numbers _ (by decide), rfl⟩, ?_⟩
      split
      · rename_i low high hlow hhigh
        rw [if_neg (double_not_lt_iff.mpr (hwell.ordered low hlow high hhigh)), given]
      · rfl

end Constraint

/-! ### The constraints of one model -/

namespace ConstraintSet

variable {j : Json} {set : ConstraintSet Float}

/-- The constraints that are given by an object: those of all its tags. -/
def given (j : Json) : ConstraintSet Float :=
  (j.fields?.getD []).map fun (tag, limits) => (tag, Constraint.given limits)

/-- The constraints of a model are an object that gives each tag a constraint. -/
def WellFormed (j : Json) : Prop :=
  ∃ fields, j.fields? = some fields ∧ ∀ field ∈ fields, Constraint.WellFormed field.2

/-- Constraints are read tag by tag. -/
lemma ofFields_eq_ok_iff {fields : Fields Json} :
    ofFields fields = .ok set ↔
      (∀ field ∈ fields, Constraint.WellFormed field.2) ∧
        set = fields.map fun (tag, limits) => (tag, Constraint.given limits) := by
  induction fields generalizing set with
  | nil => simp [ofFields, eq_comm]
  | cons field fields ih =>
    obtain ⟨tag, limits⟩ := field
    simp only [ofFields, bind_eq_ok, Constraint.ofJson_eq_ok_iff, ih, List.forall_mem_cons,
      List.map_cons]
    constructor
    · rintro ⟨_, ⟨hfirst, rfl⟩, _, ⟨hrest, rfl⟩, hset⟩
      exact ⟨⟨hfirst, hrest⟩, (Except.ok.inj hset).symm⟩
    · rintro ⟨⟨hfirst, hrest⟩, rfl⟩
      exact ⟨_, ⟨hfirst, rfl⟩, _, ⟨hrest, rfl⟩, rfl⟩

/-- The constraints of a model are read just where they are well formed, as they are given. -/
lemma ofJson_eq_ok_iff : ofJson j = .ok set ↔ WellFormed j ∧ set = given j := by
  unfold ofJson WellFormed given
  rcases j.fields? with _ | fields
  · simp
  · simp [ofFields_eq_ok_iff]

end ConstraintSet

/-! ### The constraints of a run -/

namespace RunConstraints

variable {source source' : Json} {fallback own : Option (ConstraintSet Float)} {name : String}
  {names : List String} {constraints : RunConstraints Float}

/-- The entry of a source that holds for a model: its own one, or else the default one. -/
def entryOf? (source : Json) (name : String) : Option Json :=
  (source.field? name).or (source.field? "default")

/-- The constraints that a source gives to models. -/
def given (source : Json) (names : List String) : RunConstraints Float :=
  names.map fun name => (entryOf? source name).map ConstraintSet.given

/-- A source is null, or an object whose entries for the listed models and whose default entry are
well formed where they are present. -/
def WellFormed (source : Json) (names : List String) : Prop :=
  source.isNull = true ∨ source.isObject = true ∧ ∀ name ∈ "default" :: names, ∀ entry,
    source.field? name = some entry → ConstraintSet.WellFormed entry

/-- An entry is read where it is missing or well formed. -/
lemma readEntry_eq_ok_iff :
    readEntry source fallback name = .ok own ↔
      (∀ entry, source.field? name = some entry → ConstraintSet.WellFormed entry) ∧
        own = ((source.field? name).map ConstraintSet.given).or fallback := by
  unfold readEntry
  rcases source.field? name with _ | entry
  · simp [eq_comm]
  · dsimp only
    rw [Option.map_some, Option.some_or]
    rcases hread : ConstraintSet.ofJson entry with f | set
    · have hnot : ¬ ConstraintSet.WellFormed entry := by
        intro hwell
        rw [ConstraintSet.ofJson_eq_ok_iff.mpr ⟨hwell, rfl⟩] at hread
        cases hread
      simp [Except.map, hnot]
    · obtain ⟨hwell, rfl⟩ := ConstraintSet.ofJson_eq_ok_iff.mp hread
      simp [Except.map, hwell, eq_comm]

/-- Entries are read model by model. -/
lemma forNames_eq_ok_iff :
    forNames source fallback names = .ok constraints ↔
      (∀ name ∈ names, ∀ entry, source.field? name = some entry →
        ConstraintSet.WellFormed entry) ∧
        constraints = names.map fun name =>
          ((source.field? name).map ConstraintSet.given).or fallback := by
  induction names generalizing constraints with
  | nil => simp [forNames, eq_comm]
  | cons name names ih =>
    simp only [forNames, bind_eq_ok, readEntry_eq_ok_iff, ih, List.forall_mem_cons, List.map_cons]
    constructor
    · rintro ⟨_, ⟨hfirst, rfl⟩, _, ⟨hrest, rfl⟩, hconstraints⟩
      exact ⟨⟨hfirst, hrest⟩, (Except.ok.inj hconstraints).symm⟩
    · rintro ⟨⟨hfirst, hrest⟩, rfl⟩
      exact ⟨_, ⟨hfirst, rfl⟩, _, ⟨hrest, rfl⟩, rfl⟩

/-- A source is read just where it is well formed, as it is given. -/
lemma forModels_eq_ok_iff :
    forModels source names = .ok constraints ↔
      WellFormed source names ∧ constraints = given source names := by
  unfold forModels WellFormed given entryOf?
  cases source with
  | obj fields =>
    simp only [Json.isNull, Json.isObject, Json.fields?, Option.isSome_some, Bool.false_eq_true,
      if_false, Bool.not_true, bind_eq_ok, readEntry_eq_ok_iff, forNames_eq_ok_iff,
      List.forall_mem_cons, false_or, true_and, Option.or_none]
    constructor
    · rintro ⟨_, ⟨hdefault, rfl⟩, hnames, rfl⟩
      exact ⟨⟨hdefault, hnames⟩, by simp [Option.map_or, defaultConstraintKey]⟩
    · rintro ⟨⟨hdefault, hnames⟩, rfl⟩
      exact ⟨_, ⟨hdefault, rfl⟩, hnames, by simp [Option.map_or, defaultConstraintKey]⟩
  | null =>
    constructor
    · intro hread
      exact ⟨Or.inl rfl, (Except.ok.inj hread).symm⟩
    · rintro ⟨-, rfl⟩
      rfl
  | _ => simp [Json.isNull, Json.isObject, Json.fields?]

/-- Only the entries of the listed models and the default entry are looked at. -/
lemma forModels_congr (hobject : source.isObject = true) (hobject' : source'.isObject = true)
    (h : ∀ name ∈ defaultConstraintKey :: names, source'.field? name = source.field? name) :
    forModels source' names = forModels source names := by
  have hentry : ∀ fallback, ∀ name ∈ defaultConstraintKey :: names,
      readEntry source' fallback name = readEntry source fallback name := by
    intro fallback name hname
    rw [readEntry, readEntry, h name hname]
  have hnames : ∀ fallback, ∀ listed ⊆ names,
      forNames source' fallback listed = forNames source fallback listed := by
    intro fallback listed hlisted
    induction listed with
    | nil => rfl
    | cons name listed ih =>
      obtain ⟨hname, hlisted⟩ := List.cons_subset.mp hlisted
      rw [forNames, forNames, hentry fallback name (List.mem_cons_of_mem _ hname), ih hlisted]
  simp only [forModels, Json.isNull_of_isObject hobject, Json.isNull_of_isObject hobject', hobject,
    hobject', hentry none _ List.mem_cons_self, hnames _ names (List.Subset.refl names)]

/-- A source gives constraints to models just where it is well formed.  Each model then has the
constraints of its own entry, or else of the default entry, or else none, with all limits as they are
given there.  What the source has for other models, well formed or not, changes neither the
constraints nor the failure. -/
theorem forModels_grammar (source : Json) (names : List String) :
    (∀ constraints, forModels source names = .ok constraints ↔
      WellFormed source names ∧ constraints = given source names) ∧
    ∀ source', source.isObject = true → source'.isObject = true →
      (∀ name ∈ "default" :: names, source'.field? name = source.field? name) →
      forModels source' names = forModels source names :=
  ⟨fun _ => forModels_eq_ok_iff, fun _ hobject hobject' h => forModels_congr hobject hobject' h⟩

/-- A source with an entry for one model and a default entry.  What it has under another name is no
object. -/
def mixedSource : Json :=
  .obj [("a", .obj [("perf_latency_p99", .obj [("max", .float 12.5), ("min", .int 3)])]),
    ("default", .obj [("perf_throughput", .obj [("min", .int 500)])]), ("z", .int 7)]

/-- One model falls back to the default entry, one does not, and one has the name of that entry.  The
entry that none of them has may be removed. -/
theorem forModels_of_mixedSource :
    WellFormed mixedSource ["b", "a", "default"] ∧
      forModels (mixedSource.eraseField "z") ["b", "a", "default"] =
        forModels mixedSource ["b", "a", "default"] := by
  obtain ⟨hread, hcongr⟩ := forModels_grammar mixedSource ["b", "a", "default"]
  constructor
  · exact ((hread [some [("perf_throughput", { lower := some (Float.ofInt 500) })],
      some [("perf_latency_p99", { lower := some (Float.ofInt 3), upper := some 12.5 })],
      some [("perf_throughput", { lower := some (Float.ofInt 500) })]]).mp (by rfl)).1
  · apply hcongr _ rfl rfl
    intro name hname
    rw [Json.field?_eraseField, if_neg (by rintro rfl; revert hname; decide)]

end RunConstraints

end ServingTuner
