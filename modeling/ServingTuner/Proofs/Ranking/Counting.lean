import Mathlib
import ServingTuner.Proofs.Constraint.Excess

/-!
# Every metric counts once

A measurement keeps its records in a list, and nothing but the way in which records are set keeps a
tag from being there twice.  To set a record either replaces the one of its tag or adds a tag that is
new (`ModelMeasurement.tags_set`).  So however records were set, the tags of a measurement are those
that were set, in the order in which each came first (`ModelMeasurement.tags_ofRecords`), and what is
found under a tag was set last (`ModelMeasurement.find?_ofRecords`).

Feasibility and penalty go over the records, the gain over the objectives.  What they count is listed
with the metric for which it counts (`RunConstraints.counted`, `ModelMeasurement.counted`).  No metric
is listed twice, for any quantities, and so a value that was set twice adds nothing the second time.
-/

namespace ServingTuner

open Quantity

/-- What is picked from a list under the same keys has no key twice if the list has none. -/
lemma nodup_map_filterMap {ι β κ : Type} {f : ι → Option β} {key : ι → κ} {key' : β → κ}
    {xs : List ι} (hf : ∀ x y, f x = some y → key' y = key x) (h : (xs.map key).Nodup) :
    ((xs.filterMap f).map key').Nodup := by
  refine List.pairwise_map.mpr ((List.pairwise_map.mp h).filterMap f ?_)
  intro x x' hne y hy y' hy'
  rw [hf x y hy, hf x' y' hy']
  exact hne

/-! ### Records that are set -/

/-- The record of a tag that was set last. -/
def lastOf? {α : Type} (sets : List (Record α)) (tag : String) : Option (Record α) :=
  (sets.filter (·.metric.tag == tag)).getLast?

section

variable {α : Type} {sets : List (Record α)} {tag : String}

/-- After one more record. -/
lemma lastOf?_append_singleton (sets : List (Record α)) (r : Record α) (tag : String) :
    lastOf? (sets ++ [r]) tag = if r.metric.tag = tag then some r else lastOf? sets tag := by
  by_cases htag : r.metric.tag = tag
  · simp [lastOf?, htag]
  · simp [lastOf?, htag]

/-- There is none exactly if none of the tag was set. -/
lemma lastOf?_eq_none_iff : lastOf? sets tag = none ↔ ∀ r ∈ sets, r.metric.tag ≠ tag := by
  simp [lastOf?]

end

namespace ModelMeasurement

variable {α : Type} {m : ModelMeasurement α} {r : Record α} {tag : String}

/-- The tags of the records, in their order. -/
def tags (m : ModelMeasurement α) : List String := m.records.map (·.metric.tag)

/-- A record of a tag that is new is added at the end. -/
lemma records_set_of_new (h : r.metric.tag ∉ m.tags) : (m.set r).records = m.records ++ [r] := by
  obtain ⟨variant, records⟩ := m
  show put r records = records ++ [r]
  induction records with
  | nil => rfl
  | cons x records ih =>
    obtain ⟨hfirst, hrest⟩ := not_or.mp (mt List.mem_cons.mpr h)
    have hmetric : x.metric ≠ r.metric := fun heq => hfirst (congrArg Metric.tag heq.symm)
    rw [put, if_neg hmetric, ih hrest, List.cons_append]

/-- A record of a tag that is there already takes the place of the one that is there. -/
lemma tags_set_of_mem (h : r.metric.tag ∈ m.tags) : (m.set r).tags = m.tags := by
  obtain ⟨variant, records⟩ := m
  show (put r records).map (·.metric.tag) = records.map (·.metric.tag)
  induction records with
  | nil => cases h
  | cons x records ih =>
    rw [put]
    split_ifs with hmetric
    · rw [List.map_cons, List.map_cons, hmetric]
    · have hfirst : r.metric.tag ≠ x.metric.tag := fun heq => hmetric (Metric.tag_injective heq.symm)
      rw [List.map_cons, List.map_cons, ih ((List.mem_cons.mp h).resolve_left hfirst)]

/-- To set a record leaves the tags as they are, or adds that of the record at the end. -/
lemma tags_set (m : ModelMeasurement α) (r : Record α) :
    (m.set r).tags = if r.metric.tag ∈ m.tags then m.tags else m.tags ++ [r.metric.tag] := by
  split_ifs with hmem
  · exact tags_set_of_mem hmem
  · rw [tags, records_set_of_new hmem, List.map_append]
    rfl

/-- To set a record changes what is found under its tag only. -/
lemma find?_set (m : ModelMeasurement α) (r : Record α) (tag : String) :
    (m.set r).find? tag = if r.metric.tag = tag then some r else m.find? tag := by
  obtain ⟨variant, records⟩ := m
  show (put r records).find? (·.metric.tag == tag) =
    if r.metric.tag = tag then some r else records.find? (·.metric.tag == tag)
  induction records with
  | nil => by_cases htag : r.metric.tag = tag <;> simp [put, htag]
  | cons x records ih =>
    rw [put]
    split_ifs at ih ⊢ with hmetric htag htag
    · simp [htag]
    · simp [htag, hmetric]
    · have hother : x.metric.tag ≠ tag := fun heq =>
        hmetric (Metric.tag_injective (heq.trans htag.symm))
      simp [hother, ih]
    · rw [List.find?_cons, List.find?_cons, ih]

/-- Setting records one after another can be taken up again at any time. -/
lemma foldl_set_ofRecords (variant : String) (sets later : List (Record α)) :
    later.foldl set (ofRecords variant sets) = ofRecords variant (sets ++ later) := by
  rw [ofRecords, ofRecords, List.foldl_append]

/-- The last one of the records that are set. -/
lemma ofRecords_append_singleton (variant : String) (sets : List (Record α)) (r : Record α) :
    ofRecords variant (sets ++ [r]) = (ofRecords variant sets).set r :=
  (foldl_set_ofRecords variant sets [r]).symm

/-- No tag is there twice, however records were set. -/
lemma nodup_tags_ofRecords (variant : String) (sets : List (Record α)) :
    (ofRecords variant sets).tags.Nodup := by
  induction sets using List.reverseRecOn with
  | nil => exact List.nodup_nil
  | append_singleton sets r ih =>
    rw [ofRecords_append_singleton, tags_set]
    split_ifs with hmem
    · exact ih
    · exact List.Nodup.append ih (List.nodup_singleton _) (List.disjoint_singleton.mpr hmem)

/-- The tags are in the order in which each was set first. -/
lemma tags_ofRecords (variant : String) (sets : List (Record α)) :
    (ofRecords variant sets).tags = (sets.map (·.metric.tag)).eraseDups := by
  induction sets using List.reverseRecOn with
  | nil => rfl
  | append_singleton sets r ih =>
    rw [ofRecords_append_singleton, tags_set, List.map_append, List.eraseDups_append, ih]
    generalize sets.map (·.metric.tag) = tags
    by_cases hmem : r.metric.tag ∈ tags
    · simp [List.removeAll, hmem]
    · simp [List.removeAll, hmem, List.eraseDups_cons]

/-- Under each tag there is found what was set last. -/
lemma find?_ofRecords (variant : String) (sets : List (Record α)) (tag : String) :
    (ofRecords variant sets).find? tag = lastOf? sets tag := by
  induction sets using List.reverseRecOn with
  | nil => rfl
  | append_singleton sets r ih =>
    rw [ofRecords_append_singleton, find?_set, ih, lastOf?_append_singleton]

/-- What is found under a tag is a record of it. -/
lemma mem_of_find? (h : m.find? tag = some r) : r ∈ m.records ∧ r.metric.tag = tag := by
  rw [find?] at h
  have htag := List.find?_some h
  exact ⟨List.mem_of_find?_eq_some h, beq_iff_eq.mp htag⟩

/-- Where no tag is there twice the records are those that are found. -/
lemma find?_eq_some_iff (h : m.tags.Nodup) :
    m.find? tag = some r ↔ r ∈ m.records ∧ r.metric.tag = tag := by
  refine ⟨mem_of_find?, ?_⟩
  rintro ⟨hr, rfl⟩
  obtain ⟨own, hown⟩ : ∃ own, m.find? r.metric.tag = some own :=
    Option.isSome_iff_exists.mp (List.find?_isSome.mpr ⟨r, hr, beq_self_eq_true _⟩)
  obtain ⟨hmem, htag⟩ := mem_of_find? hown
  rw [hown, List.inj_on_of_nodup_map h hmem hr htag]

/-- Where no tag is there twice the records are found tag by tag. -/
lemma records_eq_filterMap (h : m.tags.Nodup) : m.records = m.tags.filterMap m.find? := by
  have hfind : ∀ r ∈ m.records, (m.find? ∘ fun r => r.metric.tag) r = some r :=
    fun r hr => (find?_eq_some_iff h).mpr ⟨hr, rfl⟩
  rw [tags, List.filterMap_map, List.filterMap_congr hfind, List.filterMap_some]

end ModelMeasurement

/-! ### What is counted for constraints -/

/-- What is reported of a model of a run: its variant, the records in the order in which they are
set, and the objectives that rank it. -/
structure Report (α : Type) where
  variant : String
  sets : List (Record α)
  objectives : Objectives α

namespace RunMeasurement

variable {α : Type} {reports : List (Report α)} {r : Record α} {position : ℕ} {tag : String}

/-- A run of which the records were set as reported. -/
def ofReports (reports : List (Report α)) : RunMeasurement α :=
  ⟨reports.map fun report => ⟨.ofRecords report.variant report.sets, report.objectives⟩⟩

/-- The records of a run are those that were set last for their models. -/
lemma mem_records_ofReports :
    (position, r) ∈ (ofReports reports).records ∧ r.metric.tag = tag ↔
      ∃ report, reports[position]? = some report ∧ lastOf? report.sets tag = some r := by
  rw [mem_records, ofReports, List.getElem?_map]
  cases reports[position]? with
  | none => simp
  | some report =>
    have hlast : lastOf? report.sets tag = some r ↔
        r ∈ (ModelMeasurement.ofRecords report.variant report.sets).records ∧
          r.metric.tag = tag := by
      rw [← ModelMeasurement.find?_ofRecords report.variant]
      exact ModelMeasurement.find?_eq_some_iff (ModelMeasurement.nodup_tags_ofRecords _ _)
    simp [hlast]

/-- The metric that a record of a run is about: the position of its model and its tag. -/
def place (record : ℕ × Record α) : ℕ × String := (record.1, record.2.metric.tag)

/-- If no model has a tag twice, no two records are about one metric. -/
lemma nodup_places {run : RunMeasurement α} (h : ∀ entry ∈ run.models, entry.measurement.tags.Nodup) :
    (run.records.map place).Nodup := by
  obtain ⟨models⟩ := run
  induction models with
  | nil => exact List.nodup_nil
  | cons entry models ih =>
    obtain ⟨hfirst, hrest⟩ := List.forall_mem_cons.mp h
    have hplaces : (records ⟨entry :: models⟩).map place =
        entry.measurement.tags.map (Prod.mk 0) ++
          ((records ⟨models⟩).map place).map (Prod.map Nat.succ id) := by
      rw [records_cons, List.map_append, ModelMeasurement.tags, List.map_map, List.map_map,
        List.map_map, List.map_map]
      rfl
    rw [hplaces]
    refine List.Nodup.append (hfirst.map (Prod.mk_right_injective 0))
      ((ih hrest).map (Nat.succ_injective.prodMap Function.injective_id)) ?_
    -- the position of the first model is none of the positions behind it
    intro key hkey hkey'
    obtain ⟨tag, -, rfl⟩ := List.mem_map.mp hkey
    obtain ⟨other, -, heq⟩ := List.mem_map.mp hkey'
    exact Nat.succ_ne_zero other.1 (congrArg Prod.fst heq)

end RunMeasurement

namespace RunConstraints

variable {α : Type} {constraints : RunConstraints α} {run : RunMeasurement α}
  {reports : List (Report α)}

/-- The constraint that a record of a run has, and the record, with what they are about. -/
def counted? (constraints : RunConstraints α) (record : ℕ × Record α) :
    Option ((ℕ × String) × Constraint α × Record α) :=
  (constraints.constraintAt? record.1 record.2.metric.tag).map
    fun c => (RunMeasurement.place record, c, record.2)

/-- Everything that is counted for constraints: each constrained record with its constraint, and with
what they are about. -/
def counted (constraints : RunConstraints α) (run : RunMeasurement α) :
    List ((ℕ × String) × Constraint α × Record α) :=
  run.records.filterMap constraints.counted?

/-- What is counted are the constrained records. -/
lemma map_counted (constraints : RunConstraints α) (run : RunMeasurement α) :
    (constraints.counted run).map (·.2) = constraints.constrained run := by
  rw [constrained_eq, counted, List.map_filterMap]
  refine List.filterMap_congr fun record _ => ?_
  rw [counted?, Option.map_map]
  rfl

/-- If no two records are about one metric, no metric is counted twice. -/
lemma nodup_counted (h : (run.records.map RunMeasurement.place).Nodup) :
    ((constraints.counted run).map (·.1)).Nodup := by
  refine nodup_map_filterMap (fun record x hx => ?_) h
  obtain ⟨c, -, rfl⟩ := Option.map_eq_some_iff.mp hx
  rfl

/-- What is counted is a constraint of a metric and what was set last of it. -/
lemma mem_counted_ofReports {position : ℕ} {tag : String} {c : Constraint α} {r : Record α} :
    ((position, tag), c, r) ∈ constraints.counted (.ofReports reports) ↔
      constraints.constraintAt? position tag = some c ∧
        ∃ report, reports[position]? = some report ∧ lastOf? report.sets tag = some r := by
  rw [counted, List.mem_filterMap, ← RunMeasurement.mem_records_ofReports]
  constructor
  · rintro ⟨record, hmem, hcounted⟩
    obtain ⟨own, hc, heq⟩ := Option.map_eq_some_iff.mp hcounted
    cases heq
    exact ⟨hc, hmem, rfl⟩
  · rintro ⟨hc, hmem, rfl⟩
    exact ⟨(position, r), hmem, by rw [counted?, hc]; rfl⟩

variable [Quantity α]

/-- A run is feasible if everything that is counted is allowed. -/
lemma satisfied_eq_counted (constraints : RunConstraints α) (run : RunMeasurement α) :
    constraints.satisfied run =
      (constraints.counted run).all fun (_, c, r) => c.allows r.value := by
  rw [satisfied, ← map_counted, List.all_map]
  rfl

/-- The penalty adds up the overages of everything that is counted. -/
lemma penalty_eq_counted (constraints : RunConstraints α) (run : RunMeasurement α) :
    constraints.penalty run =
      total ((constraints.counted run).flatMap fun (_, c, r) => c.overages r.value) *
        ofNat 100 := by
  rw [penalty, ← map_counted, List.flatMap_map]

end RunConstraints

/-! ### What is counted for a gain -/

namespace ModelMeasurement

variable {α : Type} {mine theirs : ModelMeasurement α} {objectives : Objectives α}

/-- What an objective adds to a gain, under its tag. -/
def counted? (mine theirs : ModelMeasurement α) (objective : String × α) :
    Option (String × α × Record α × Record α) :=
  match mine.find? objective.1, theirs.find? objective.1 with
  | some a, some b => some (objective.1, objective.2, a, b)
  | _, _ => none

/-- Everything that is counted for a gain, as a table: under each tag the weight and the two records. -/
def counted (mine theirs : ModelMeasurement α) (objectives : Objectives α) :
    Fields (α × Record α × Record α) :=
  objectives.filterMap (mine.counted? theirs)

/-- An objective is counted if both measurements have a record of it. -/
lemma counted?_eq_some_iff {objective : String × α} {x : String × α × Record α × Record α} :
    mine.counted? theirs objective = some x ↔ objective = (x.1, x.2.1) ∧
      mine.find? x.1 = some x.2.2.1 ∧ theirs.find? x.1 = some x.2.2.2 := by
  obtain ⟨tag, weight⟩ := objective
  obtain ⟨tag', weight', a, b⟩ := x
  dsimp only
  constructor
  · rw [counted?]
    intro h
    split at h
    · next a' b' ha hb =>
      cases h
      exact ⟨rfl, ha, hb⟩
    · cases h
  · rintro ⟨heq, ha, hb⟩
    cases heq
    rw [counted?, ha, hb]

/-- What is counted is an objective of which both measurements have a record. -/
lemma mem_counted {tag : String} {weight : α} {a b : Record α} :
    (tag, weight, a, b) ∈ mine.counted theirs objectives ↔
      (tag, weight) ∈ objectives ∧ mine.find? tag = some a ∧ theirs.find? tag = some b := by
  rw [counted, List.mem_filterMap]
  constructor
  · rintro ⟨objective, hmem, hcounted⟩
    obtain ⟨rfl, hrecords⟩ := counted?_eq_some_iff.mp hcounted
    exact ⟨hmem, hrecords⟩
  · rintro ⟨hmem, hrecords⟩
    exact ⟨(tag, weight), hmem, counted?_eq_some_iff.mpr ⟨rfl, hrecords⟩⟩

/-- No objective is counted twice. -/
lemma nodup_counted (h : (Fields.keys objectives).Nodup) :
    (Fields.keys (mine.counted theirs objectives)).Nodup := by
  refine nodup_map_filterMap (fun objective x hx => ?_) h
  obtain ⟨rfl, -⟩ := counted?_eq_some_iff.mp hx
  rfl

/-- What is counted are the objectives that are shared. -/
lemma map_counted (mine theirs : ModelMeasurement α) (objectives : Objectives α) :
    (mine.counted theirs objectives).map (·.2) = mine.shared theirs objectives := by
  rw [counted, shared, List.map_filterMap]
  refine List.filterMap_congr ?_
  rintro ⟨tag, weight⟩ -
  dsimp only [counted?]
  cases mine.find? tag <;> cases theirs.find? tag <;> rfl

/-- The gain weights what is counted, and adds it up. -/
lemma gain_eq_counted [Quantity α] (mine theirs : ModelMeasurement α)
    (objectives : Objectives α) :
    mine.gain theirs objectives =
      let counted := mine.counted theirs objectives
      let weights := total (counted.map fun (_, weight, _, _) => weight)
      if atMost weights zero then zero
      else total (counted.map fun (_, weight, a, b) => weight / weights * a.gainOver b) := by
  rw [gain, ← map_counted, List.map_map, List.map_map]
  rfl

end ModelMeasurement

/-- However records are set, every metric counts once.

* Setting records can be taken up again at any time, and it makes no difference whether the first ones
  were there from the beginning.  The measurement has one record at most of each tag, and its tags are
  in the order in which each was set first.  What is found under a tag is the record that was set
  last, and there is none if none was set.
* Feasibility and penalty count no metric of a model twice.  They count those that have a constraint
  and of which a record was set, each with the record that was set last.
* The gain counts no objective twice.  It counts those of which records were set on both sides, each
  with the records that were set last. -/
theorem counted_once {α : Type} [Quantity α] :
    (∀ (variant : String) (sets : List (Record α)),
      let m : ModelMeasurement α := .ofRecords variant sets
      (∀ later : List (Record α),
        later.foldl ModelMeasurement.set m = .ofRecords variant (sets ++ later)) ∧
      m.tags.Nodup ∧ m.tags = (sets.map (·.metric.tag)).eraseDups ∧
      m.records = m.tags.filterMap (lastOf? sets) ∧
      ∀ tag, m.find? tag = lastOf? sets tag ∧
        (m.find? tag = none ↔ ∀ r ∈ sets, r.metric.tag ≠ tag)) ∧
    (∀ (constraints : RunConstraints α) (reports : List (Report α)),
      let run : RunMeasurement α := .ofReports reports
      let counted := constraints.counted run
      (counted.map (·.1)).Nodup ∧
      (∀ position tag c r, ((position, tag), c, r) ∈ counted ↔
        constraints.constraintAt? position tag = some c ∧
          ∃ report, reports[position]? = some report ∧ lastOf? report.sets tag = some r) ∧
      constraints.satisfied run = counted.all (fun (_, c, r) => c.allows r.value) ∧
      constraints.penalty run =
        total (counted.flatMap fun (_, c, r) => c.overages r.value) * ofNat 100) ∧
    ∀ (objectives : Objectives α), Fields.Sorted objectives →
      ∀ (variant variant' : String) (sets sets' : List (Record α)),
        let mine : ModelMeasurement α := .ofRecords variant sets
        let theirs : ModelMeasurement α := .ofRecords variant' sets'
        let counted := mine.counted theirs objectives
        let weights := total (counted.map fun (_, weight, _, _) => weight)
        (Fields.keys counted).Nodup ∧
        (∀ tag weight a b, (tag, weight, a, b) ∈ counted ↔
          (tag, weight) ∈ objectives ∧ lastOf? sets tag = some a ∧ lastOf? sets' tag = some b) ∧
        mine.gain theirs objectives =
          if atMost weights zero then zero
          else total (counted.map fun (_, weight, a, b) => weight / weights * a.gainOver b) := by
  refine ⟨?_, ?_, ?_⟩
  · intro variant sets m
    have hunique := ModelMeasurement.nodup_tags_ofRecords variant sets
    have hfind := ModelMeasurement.find?_ofRecords variant sets
    refine ⟨ModelMeasurement.foldl_set_ofRecords variant sets, hunique,
      ModelMeasurement.tags_ofRecords variant sets, ?_, fun tag => ⟨hfind tag, ?_⟩⟩
    · rw [← funext hfind]
      exact ModelMeasurement.records_eq_filterMap hunique
    · rw [hfind tag]
      exact lastOf?_eq_none_iff
  · intro constraints reports run counted
    refine ⟨RunConstraints.nodup_counted (RunMeasurement.nodup_places ?_), ?_,
      constraints.satisfied_eq_counted run, constraints.penalty_eq_counted run⟩
    · intro entry hentry
      obtain ⟨report, -, rfl⟩ := List.mem_map.mp hentry
      exact ModelMeasurement.nodup_tags_ofRecords report.variant report.sets
    · exact fun _ _ _ _ => RunConstraints.mem_counted_ofReports
  · intro objectives hsorted variant variant' sets sets' mine theirs counted weights
    refine ⟨ModelMeasurement.nodup_counted hsorted.nodup_keys, ?_,
      mine.gain_eq_counted theirs objectives⟩
    intro tag weight a b
    rw [← ModelMeasurement.find?_ofRecords variant sets,
      ← ModelMeasurement.find?_ofRecords variant' sets']
    exact ModelMeasurement.mem_counted

/-- A throughput that is set twice counts once, and with its second value. -/
theorem counted_once_of_replaced :
    let sets : List (Record ℚ) :=
      [⟨.throughput, 10, 0⟩, ⟨.latencyP99, 5, 0⟩, ⟨.throughput, 20, 0⟩]
    let mine : ModelMeasurement ℚ := .ofRecords "bert_config_0" sets
    let theirs : ModelMeasurement ℚ := .ofRecords "bert_config_default" [⟨.throughput, 10, 0⟩]
    let constraints : RunConstraints ℚ := [some [(Metric.throughput.tag, ⟨some 40, none⟩)]]
    let run : RunMeasurement ℚ := .ofReports [⟨"bert_config_0", sets, .standard⟩]
    Fields.Sorted (Objectives.standard : Objectives ℚ) ∧
      (mine.tags = [Metric.throughput.tag, Metric.latencyP99.tag] ∧ mine.tags.Nodup ∧
        mine.find? Metric.throughput.tag = lastOf? sets Metric.throughput.tag ∧
        lastOf? sets Metric.throughput.tag = some ⟨.throughput, 20, 0⟩) ∧
      (((constraints.counted run).map (·.1)).Nodup ∧ constraints.penalty run = 50) ∧
      (Fields.keys (mine.counted theirs .standard)).Nodup ∧ mine.gain theirs .standard = 100 := by
  intro sets mine theirs constraints run
  have hsorted : Fields.Sorted (Objectives.standard : Objectives ℚ) := by
    unfold Fields.Sorted
    decide
  obtain ⟨hsets, hconstraints, hgain⟩ := @counted_once ℚ _
  obtain ⟨-, hunique, -, -, hfind⟩ := hsets "bert_config_0" sets
  obtain ⟨hcounted, -⟩ := hconstraints constraints [⟨"bert_config_0", sets, .standard⟩]
  obtain ⟨hobjectives, -⟩ := hgain .standard hsorted "bert_config_0" "bert_config_default" sets
    [⟨.throughput, 10, 0⟩]
  exact ⟨hsorted, ⟨rfl, hunique, (hfind _).1, rfl⟩, ⟨hcounted, by decide +kernel⟩, hobjectives,
    by decide +kernel⟩

end ServingTuner
